import ContractHost.Error

/-!
# The call stack

A frame is one call: who calls, which contract, with what payload. The stack holds the frames of the
calls that have not returned, the current one on top. Its lowest frame, the entry, is never taken
off. A stack is valid when it holds a frame and no more frames than its bound.
-/

namespace ContractHost

/-- One call of a contract. -/
structure Frame where
  caller : Address
  target : Address
  payload : Bytes
deriving DecidableEq, Repr, Inhabited

/-- The frames of the calls under way, the current one first, and how many are allowed. -/
structure CallStack where
  frames : List Frame
  maxDepth : Nat
deriving DecidableEq, Repr

namespace CallStack

/-- How many frames are allowed unless configured otherwise. -/
def standardMaxDepth : Nat := 128

/-- A stack without frames. -/
def empty (maxDepth : Nat) : CallStack := ⟨[], maxDepth⟩

instance : Inhabited CallStack := ⟨empty standardMaxDepth⟩

/-- Puts a frame on top. -/
def push (stack : CallStack) (frame : Frame) : CallStack :=
  { stack with frames := frame :: stack.frames }

/-- The frame that `pop` takes off: the top one, unless it is the entry. -/
def popped? (stack : CallStack) : Option Frame :=
  match stack.frames with
  | top :: _ :: _ => some top
  | _ => none

/-- Takes the top frame off, unless it is the entry. -/
def pop (stack : CallStack) : CallStack :=
  match stack.frames with
  | _ :: next :: rest => { stack with frames := next :: rest }
  | _ => stack

/-- The call that runs now. -/
def current? (stack : CallStack) : Option Frame := stack.frames.head?

/-- The call that made the current one. -/
def calling? (stack : CallStack) : Option Frame := stack.frames[1]?

/-- The first call. -/
def first? (stack : CallStack) : Option Frame := stack.frames.getLast?

/-- How many frames there are. -/
def depth (stack : CallStack) : Nat := stack.frames.length

/-- There is no frame. -/
def isEmpty (stack : CallStack) : Bool := stack.frames.isEmpty

/-- Refuses a stack without frames or with too many. -/
def validate (stack : CallStack) : Except RuntimeError Unit :=
  if stack.isEmpty then .error .emptyContextStack
  else if stack.maxDepth < stack.depth then
    .error (.contextDepthExceeded stack.depth stack.maxDepth)
  else .ok ()

/-- Whether `validate` accepts. -/
def isValid (stack : CallStack) : Bool := stack.validate.toBool

@[simp] theorem maxDepth_push (stack : CallStack) (frame : Frame) :
    (stack.push frame).maxDepth = stack.maxDepth := rfl

@[simp] theorem depth_push (stack : CallStack) (frame : Frame) :
    (stack.push frame).depth = stack.depth + 1 := rfl

@[simp] theorem current?_push (stack : CallStack) (frame : Frame) :
    (stack.push frame).current? = some frame := rfl

@[simp] theorem maxDepth_pop (stack : CallStack) : stack.pop.maxDepth = stack.maxDepth := by
  rw [pop]
  split <;> rfl

/-- Above the entry a frame comes off as it went on. -/
theorem pop_push {stack : CallStack} (h : stack.isEmpty = false) (frame : Frame) :
    (stack.push frame).pop = stack := by
  obtain ⟨frames, maxDepth⟩ := stack
  cases frames with
  | nil => cases h
  | cons top rest => rfl

/-- The entry stays. -/
theorem pop_push_empty (maxDepth : Nat) (frame : Frame) :
    ((empty maxDepth).push frame).pop = (empty maxDepth).push frame := rfl

theorem first?_push {stack : CallStack} (h : stack.isEmpty = false) (frame : Frame) :
    (stack.push frame).first? = stack.first? := by
  obtain ⟨frames, maxDepth⟩ := stack
  cases frames with
  | nil => cases h
  | cons top rest => rfl

end CallStack

end ContractHost
