import LineEditor.Action

/-!
# Byte input

* `ByteSource` — whatever hands out bytes, one at a time.
* `Feed` — a recorded input: bytes, and between them the faults and the ends that reading meets.
  A read that is broken off is made again; any other fault is reported once and the bytes behind it
  are still there; an end is reported once too.
* A list of bytes is a source that ends with the list.
-/

set_option autoImplicit false

namespace LineEditor

/-! ## Sources of bytes -/

/-- Whatever hands out bytes.  A source is finite: `remaining` bounds the bytes still to come.

A source of endlessly many bytes is left out by this bound.  Whatever returns has taken finitely many of
them, so on such a source it does what it does on one that ends behind the bytes that it took. -/
class ByteSource (β : Type) where
  /-- The next byte; the end of the input is a failure. -/
  readByte : Action β UInt8
  /-- A bound on the bytes still to come. -/
  remaining : β → Nat
  /-- Every byte lowers the bound. -/
  remaining_lt : ∀ {source next : β} {byte : UInt8}, readByte source = .ok byte next →
    remaining next < remaining source

instance : ByteSource (List UInt8) where
  readByte
    | [] => .error .endOfInput []
    | byte :: rest => .ok byte rest
  remaining := List.length
  remaining_lt {source next byte} h := by
    cases source with
    | nil => cases h
    | cons b rest => cases h; exact Nat.lt_succ_self _

/-! ## Recorded input -/

/-- What a read of the input meets. -/
inductive Feed.Item where
  | byte (value : UInt8)
  /-- the read fails once -/
  | fault (fault : IoFault)
  /-- the read finds the end once -/
  | ending
  deriving DecidableEq, Repr

/-- A recorded input; it ends for good after the last item. -/
structure Feed where
  items : List Feed.Item
  deriving Inhabited

namespace Feed

/-- The feed of some bytes. -/
def ofBytes (bytes : List UInt8) : Feed := ⟨bytes.map .byte⟩

/-- Read one byte from the items. -/
def readItems : List Item → EStateM.Result Failure (List Item) UInt8
  | [] => .error .endOfInput []
  | .byte value :: rest => .ok value rest
  | .ending :: rest => .error .endOfInput rest
  | .fault fault :: rest =>
    if fault.kind = .interrupted then readItems rest else .error fault.toFailure rest

/-- The next byte of the feed. -/
def readByte : Action Feed UInt8 := fun feed =>
  match readItems feed.items with
  | .ok byte rest => .ok byte ⟨rest⟩
  | .error failure rest => .error failure ⟨rest⟩

theorem length_of_readItems_ok {items rest : List Item} {byte : UInt8}
    (h : readItems items = .ok byte rest) : rest.length < items.length := by
  induction items with
  | nil => cases h
  | cons item items ih =>
    cases item with
    | byte value => cases h; exact Nat.lt_succ_self _
    | ending => cases h
    | fault fault =>
      simp only [readItems] at h
      split at h
      · exact Nat.lt_succ_of_lt (ih h)
      · cases h

instance : ByteSource Feed where
  readByte := readByte
  remaining feed := feed.items.length
  remaining_lt {source next byte} h := by
    unfold readByte at h
    split at h
    · next hread => cases h; exact length_of_readItems_ok hread
    · cases h

end Feed

end LineEditor
