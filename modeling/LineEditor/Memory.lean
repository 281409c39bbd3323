/-!
# Memory

What the machine answers when a line asks for storage.  The answers are numbered by the requests
made so far, so that any request can be the one that is refused.

* `Memory.plentiful` grants everything.
* `Memory.machine` refuses what no machine can give.
-/

set_option autoImplicit false

namespace LineEditor

/-- Why a request for storage was refused. -/
inductive Refusal where
  /-- the size is larger than any block can be -/
  | tooLarge
  /-- the machine has no such block left -/
  | exhausted
  deriving DecidableEq, Repr

/-- The reason as messages print it. -/
def Refusal.reason : Refusal → String
  | .tooLarge => "the computed capacity exceeded the collection's maximum"
  | .exhausted => "the memory allocator returned an error"

/-- The storage of the machine, as the requests for it see it. -/
structure Memory where
  /-- the answer to a request, given the number of requests before it and its size in bytes -/
  answer : Nat → Nat → Option Refusal
  /-- the number of requests made so far -/
  requests : Nat := 0

namespace Memory

/-- Ask for a block of the given size in bytes. -/
def reserve (memory : Memory) (bytes : Nat) : Option Refusal × Memory :=
  (memory.answer memory.requests bytes, { memory with requests := memory.requests + 1 })

/-- Storage without end. -/
def plentiful : Memory where
  answer _ _ := none

/-- The largest size that a block can have at all. -/
def largestBlock : Nat := 0x7FFFFFFFFFFFFFFF

/-- The part of the address space that a program can use. -/
def addressSpace : Nat := 0x800000000000

/-- A machine with 64-bit addresses. -/
def machine : Memory where
  answer _ bytes :=
    if largestBlock < bytes then some .tooLarge
    else if addressSpace < bytes then some .exhausted
    else none

end Memory

end LineEditor
