import ContractHost.Store

/-!
# Store operations as data

The operations that contracts make on the store, each with the type of its reply. A value of fixed
width is an address, a word or an integer, and stands in one word (`WordType`).
-/

namespace ContractHost

/-- The types of values that stand in one word. -/
inductive WordType where
  | address
  | word
  | integer
deriving DecidableEq, Repr

namespace WordType

/-- The values of a type. -/
@[reducible] def Value : WordType → Type
  | address => Address
  | word => Word
  | integer => UInt256

/-- The word of a value. -/
def toWord : (type : WordType) → type.Value → Word
  | address, value => Address.toWord value
  | word, value => value
  | integer, value => Word.ofUInt256 value

/-- The value that a word holds. -/
def ofWord : (type : WordType) → Word → type.Value
  | address, content => Address.ofWord content
  | word, content => content
  | integer, content => Word.toUInt256 content

end WordType

namespace Store

/-- An operation on the store. -/
inductive Operation where
  | put (key value : Bytes)
  | get (key : Bytes)
  | getBytes (key : Bytes)
  | contains (key : Bytes)
  | delete (key : Bytes)
  | set (type : WordType) (key : Bytes) (value : type.Value)
  | load (type : WordType) (key : Bytes)
  | clear (key : Bytes)

namespace Operation

/-- What an operation replies with. -/
@[reducible] def Reply : Operation → Type
  | put _ _ => PutReceipt
  | get _ => Option Bytes
  | getBytes _ => Bytes
  | contains _ => Bool
  | delete _ => DeleteReceipt
  | set _ _ _ => Unit
  | load type _ => type.Value
  | clear _ => Unit

/-- Makes an operation on the store. -/
def run {σ : Type} [Ledger σ] (costs : StorageCosts) :
    (operation : Operation) → StoreM σ operation.Reply
  | put key value => Store.put costs key value
  | get key => Store.get costs key
  | getBytes key => Store.getBytes costs key
  | contains key => Store.contains costs key
  | delete key => Store.delete costs key
  | set type key value => Store.setWord costs key (type.toWord value)
  | load type key => do return type.ofWord (← Store.getWord costs key)
  | clear key => Store.clear costs key

end Operation

end Store

end ContractHost
