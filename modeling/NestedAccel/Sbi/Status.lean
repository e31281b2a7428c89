import NestedAccel.Word

/-!
# `NestedAccel.Sbi.Status` — error codes and return values of calls

A call returns two words: an error code, zero or a negative number in two's complement, and a value.

## Contents
- **Errors.** `SbiError`, `code`, `ofCode`, `word`, `ofWord`.
- **Returns.** `Return`, `Return.success`, `Return.failure`, and `readResult`, what the caller makes
  of the two words.
-/

namespace NestedAccel

/-- The errors a call can report. -/
inductive SbiError where
  /-- The call failed for no reason with a code of its own. -/
  | failed
  | notSupported
  | invalidParam
  | denied
  | invalidAddress
  | alreadyAvailable
  | alreadyStarted
  | alreadyStopped
  /-- No shared area is registered for the calling hart. -/
  | noShmem
  | invalidState
  | badRange
  | timeout
  /-- A transient failure; the call may be repeated. -/
  | io
  | deniedLocked
  | outOfMemory
deriving DecidableEq, Repr, Inhabited

namespace SbiError

/-- Every error, in the order of the codes `-1`, `-2`, and so on. -/
def all : List SbiError :=
  [failed, notSupported, invalidParam, denied, invalidAddress, alreadyAvailable, alreadyStarted,
    alreadyStopped, noShmem, invalidState, badRange, timeout, io, deniedLocked, outOfMemory]

/-- The error's code. -/
def code : SbiError → Int
  | failed => -1
  | notSupported => -2
  | invalidParam => -3
  | denied => -4
  | invalidAddress => -5
  | alreadyAvailable => -6
  | alreadyStarted => -7
  | alreadyStopped => -8
  | noShmem => -9
  | invalidState => -10
  | badRange => -11
  | timeout => -12
  | io => -13
  | deniedLocked => -14
  | outOfMemory => -15

/-- The error's name. -/
def name : SbiError → String
  | failed => "Failed"
  | notSupported => "NotSupported"
  | invalidParam => "InvalidParam"
  | denied => "Denied"
  | invalidAddress => "InvalidAddress"
  | alreadyAvailable => "AlreadyAvailable"
  | alreadyStarted => "AlreadyStarted"
  | alreadyStopped => "AlreadyStopped"
  | noShmem => "NoShmem"
  | invalidState => "InvalidState"
  | badRange => "BadRange"
  | timeout => "Timeout"
  | io => "Io"
  | deniedLocked => "DeniedLocked"
  | outOfMemory => "OutOfMemory"

/-- The error with the given code; a code that no error has means a general failure. -/
def ofCode (c : Int) : SbiError := (all.find? (·.code == c)).getD failed

/-- The code as a word. -/
def word (e : SbiError) : Word := .ofInt e.code

/-- The error with the code held in a word. -/
def ofWord (w : Word) : SbiError := ofCode w.toInt64.toInt

@[simp] theorem ofCode_code (e : SbiError) : ofCode e.code = e := by cases e <;> rfl

@[simp] theorem ofWord_word (e : SbiError) : ofWord e.word = e := by cases e <;> decide

theorem word_ne_zero (e : SbiError) : e.word ≠ 0 := by cases e <;> decide

end SbiError

/-- The outcome of a call as its caller reads it: the value if the error code is zero. -/
def readResult (code value : Word) : Except SbiError Word :=
  if code = 0 then .ok value else .error (.ofWord code)

/-- The outcome of an operation that returns a code and no value. -/
def readStatus (code : Word) : Except SbiError Unit :=
  if code = 0 then .ok () else .error (.ofWord code)

/-- The two words a call returns. -/
structure Return where
  /-- Zero, or the code of an error. -/
  code : Int
  /-- The value; zero with every error. -/
  value : Word
deriving DecidableEq, Repr, Inhabited

namespace Return

/-- A successful return of `v`. -/
def success (v : Word) : Return := ⟨0, v⟩

/-- A return of error `e`. -/
def failure (e : SbiError) : Return := ⟨e.code, 0⟩

end Return

end NestedAccel
