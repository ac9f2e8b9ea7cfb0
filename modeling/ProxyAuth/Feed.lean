import ProxyAuth.Text.Split

/-!
# Framing of request heads

Bytes arrive in portions of any size.  `Feed.next` takes one head, up to and including the first
blank line, off what has arrived; `Feed.heads` takes one after the other until the connection ends.
A head is looked for before the size of the buffer is, and both before more is read.
-/

namespace ProxyAuth

open Text

/-- What has arrived and not been taken yet, and the portions still to come. -/
structure Feed where
  buffer : Bytes
  portions : List Bytes
  deriving DecidableEq

namespace Feed

/-- The blank line that ends a head. -/
def blankLine : Bytes := [13, 10, 13, 10]

/-- With this many bytes and no head among them the connection is given up. -/
def maxHeadLength : Nat := 16384

/-- Why reading ended. -/
inductive Ending
  /-- The peer closed between two heads. -/
  | closed
  | tooLarge
  /-- The peer closed within a head. -/
  | truncated
  deriving DecidableEq

/-- The wording of a bad ending. -/
def Ending.fault? : Ending → Option Text
  | .closed => none
  | .tooLarge => some "request head too large".toList
  | .truncated => some "unexpected end of file".toList

/-- The outcome of looking for one head. -/
inductive Step
  | head (bytes : Bytes) (rest : Feed)
  | ended (ending : Ending)
  deriving DecidableEq

/-- The first head of a buffer and what follows it. -/
def cut? (buffer : Bytes) : Option (Bytes × Bytes) :=
  (splitFirst? blankLine buffer).map fun (before, after) => (before ++ blankLine, after)

/-- Look for a head in the buffer, and read on while there is none. -/
def nextFrom (buffer : Bytes) (portions : List Bytes) : Step :=
  match cut? buffer with
  | some (head, rest) => .head head ⟨rest, portions⟩
  | none =>
      if maxHeadLength ≤ buffer.length then .ended .tooLarge
      else match portions with
        | [] => .ended (if buffer = [] then .closed else .truncated)
        | portion :: portions => nextFrom (buffer ++ portion) portions

/-- Take one head off a feed. -/
def next (feed : Feed) : Step := nextFrom feed.buffer feed.portions

/-- The number of bytes of a feed. -/
def size (feed : Feed) : Nat := feed.buffer.length + feed.portions.flatten.length

/-- A head and what follows it are the whole buffer. -/
theorem cut?_eq_some {buffer head rest : Bytes} (h : cut? buffer = some (head, rest)) :
    buffer = head ++ rest ∧ 4 ≤ head.length := by
  obtain ⟨⟨before, after⟩, hs, he⟩ := Option.map_eq_some_iff.mp h
  obtain ⟨rfl, rfl⟩ := Prod.mk.inj he
  exact ⟨splitFirst?_eq_some hs, by simp [blankLine]⟩

/-- Taking a head off makes a feed smaller. -/
theorem size_lt_of_nextFrom {portions : List Bytes} {buffer head : Bytes} {rest : Feed}
    (h : nextFrom buffer portions = .head head rest) : rest.size < size ⟨buffer, portions⟩ := by
  induction portions generalizing buffer with
  | nil =>
    unfold nextFrom at h
    split at h
    · rename_i hc
      obtain ⟨hb, hl⟩ := cut?_eq_some hc
      cases h
      simp only [size, hb, List.length_append]
      omega
    · split at h <;> cases h
  | cons portion portions ih =>
    unfold nextFrom at h
    split at h
    · rename_i hc
      obtain ⟨hb, hl⟩ := cut?_eq_some hc
      cases h
      simp only [size, hb, List.length_append]
      omega
    · split at h
      · cases h
      · have := ih h
        simp only [size, List.length_append, List.flatten_cons] at this ⊢
        omega

/-- All heads of a feed, and how reading ends. -/
def heads (feed : Feed) : List Bytes × Ending :=
  match _h : feed.next with
  | .ended ending => ([], ending)
  | .head bytes rest =>
      let (more, ending) := heads rest
      (bytes :: more, ending)
termination_by feed.size
decreasing_by exact size_lt_of_nextFrom _h

/-- The number of bytes that one read brings at most. -/
def portionLength : Nat := 4096

/-- Cut bytes into portions as long as one read brings. -/
def portionsOf (bytes : Bytes) : List Bytes :=
  if _h : bytes = [] then []
  else bytes.take portionLength :: portionsOf (bytes.drop portionLength)
termination_by bytes.length
decreasing_by
  have := List.length_pos_iff.mpr _h
  simp only [List.length_drop, portionLength]
  omega

/-- A feed whose bytes have all arrived before the first read. -/
def ofBytes (bytes : Bytes) : Feed := ⟨[], portionsOf bytes⟩

end Feed

end ProxyAuth
