import Mathlib.Tactic
import ProxyAuth.Feed
import ProxyAuth.Proofs.Text

/-!
# The heads of a stream

The heads that a feed gives depend on its bytes only, not on the portions in which they arrive, as
long as no head is longer than the limit.  The heads of a stream are said without any buffer: its
bytes come one at a time, and a head is complete as soon as a blank line is.

* `IsHead`: a blank line at the end, and none before;
* `headsOf`, `remainderOf`, `headsOf_spec`: a stream is its heads and a remainder without a blank
  line;
* `headsOf_flatten`: heads one behind the other are found again;
* `PausesBetween`: where reads end;
* `meets_of_isHead`: however a head arrives, it is the next one that is taken, unless a read ends
  with the limit reached and the head not complete;
* `heads_eq`, `heads_of_flatten`: the heads of a feed are those of its bytes.
-/

namespace ProxyAuth.Feed

open Text

/-- A head ends in a blank line, and nothing shorter holds one. -/
def IsHead (head : Bytes) : Prop := blankLine <:+ head ∧ ¬ blankLine <:+: head.dropLast

instance (head : Bytes) : Decidable (IsHead head) := inferInstanceAs (Decidable (_ ∧ _))

/-- The bytes of a feed, whether they have arrived or not. -/
def bytes (feed : Feed) : Bytes := feed.buffer ++ feed.portions.flatten

/-- How reading ends with bytes that hold no head. -/
def endingOf (remainder : Bytes) : Ending :=
  if maxHeadLength ≤ remainder.length then .tooLarge
  else if remainder = [] then .closed else .truncated

/-! ### One byte at a time -/

/-- The heads of a stream and what follows the last one, where `current` came before. -/
def cutFrom (current : Bytes) : Bytes → List Bytes × Bytes
  | [] => ([], current)
  | b :: stream =>
      if blankLine <:+ current ++ [b] then
        ((current ++ [b]) :: (cutFrom [] stream).1, (cutFrom [] stream).2)
      else cutFrom (current ++ [b]) stream

/-- The complete heads of a stream. -/
def headsOf (stream : Bytes) : List Bytes := (cutFrom [] stream).1

/-- The bytes of a stream behind its last head. -/
def remainderOf (stream : Bytes) : Bytes := (cutFrom [] stream).2

theorem not_infix_nil : ¬ blankLine <:+: [] := by decide

theorem cutFrom_spec {current : Bytes} (hcurrent : ¬ blankLine <:+: current) (stream : Bytes) :
    current ++ stream = (cutFrom current stream).1.flatten ++ (cutFrom current stream).2 ∧
      (∀ head ∈ (cutFrom current stream).1, IsHead head) ∧
      ¬ blankLine <:+: (cutFrom current stream).2 := by
  induction stream generalizing current with
  | nil => exact ⟨by simp [cutFrom], by simp [cutFrom], hcurrent⟩
  | cons b stream ih =>
    rw [cutFrom]
    split_ifs with hend
    · obtain ⟨hbytes, hheads, hremainder⟩ := ih not_infix_nil
      refine ⟨?_, ?_, hremainder⟩
      · rw [List.nil_append] at hbytes
        rw [List.flatten_cons, List.append_assoc, ← hbytes, List.append_assoc,
          List.singleton_append]
      · rintro head hhead
        rcases List.mem_cons.mp hhead with rfl | hhead
        · exact ⟨hend, by rwa [List.dropLast_concat]⟩
        · exact hheads head hhead
    · have hnext : ¬ blankLine <:+: current ++ [b] := by
        rw [List.infix_concat_iff]
        exact not_or.mpr ⟨hend, hcurrent⟩
      have h := ih hnext
      rwa [List.append_assoc, List.singleton_append] at h

/-- A stream is its heads, one behind the other, and a remainder without a blank line. -/
theorem headsOf_spec (stream : Bytes) :
    stream = (headsOf stream).flatten ++ remainderOf stream ∧
      (∀ head ∈ headsOf stream, IsHead head) ∧ ¬ blankLine <:+: remainderOf stream :=
  cutFrom_spec not_infix_nil stream

theorem cutFrom_append {current front : Bytes} (h : IsHead (current ++ front)) (hne : front ≠ [])
    (stream : Bytes) :
    cutFrom current (front ++ stream) =
      ((current ++ front) :: (cutFrom [] stream).1, (cutFrom [] stream).2) := by
  induction front generalizing current with
  | nil => exact absurd rfl hne
  | cons b front ih =>
    rw [List.append_cons] at h
    rw [List.cons_append, cutFrom, List.append_cons current b front]
    by_cases hfront : front = []
    · subst hfront
      rw [List.append_nil] at h
      rw [if_pos h.1]
      simp
    · -- The head is not complete yet.
      have hno : ¬ blankLine <:+ current ++ [b] := by
        intro hend
        refine h.2 (hend.isInfix.trans ?_)
        rw [List.dropLast_append_of_ne_nil hfront]
        exact (List.prefix_append _ _).isInfix
      rw [if_neg hno, ih h hfront]

theorem IsHead.ne_nil {head : Bytes} (h : IsHead head) : head ≠ [] := by
  rintro rfl
  exact absurd h.1 (by decide)

/-- A head at the front of a stream is its first one. -/
theorem headsOf_append {head : Bytes} (h : IsHead head) (stream : Bytes) :
    headsOf (head ++ stream) = head :: headsOf stream := by
  have hhead : IsHead ([] ++ head) := h
  rw [headsOf, cutFrom_append hhead h.ne_nil stream]
  rfl

/-- Heads one behind the other are the heads of their stream. -/
theorem headsOf_flatten {hs : List Bytes} (h : ∀ head ∈ hs, IsHead head) :
    headsOf hs.flatten = hs := by
  induction hs with
  | nil => rfl
  | cons head hs ih =>
    rw [List.flatten_cons, headsOf_append (h head List.mem_cons_self),
      ih fun x hx => h x (List.mem_cons_of_mem _ hx)]

/-! ### Portions -/

theorem cut?_eq_none {buffer : Bytes} (h : ¬ blankLine <:+: buffer) : cut? buffer = none := by
  rw [cut?, splitFirst?_eq_none_iff.mpr h]
  rfl

/-- A head that has arrived is cut off. -/
theorem cut?_of_isHead {head : Bytes} (h : IsHead head) (rest : Bytes) :
    cut? (head ++ rest) = some (head, rest) := by
  obtain ⟨⟨before, rfl⟩, hfirst⟩ := h
  rw [cut?, splitFirst?_of_first (by decide) hfirst]
  rfl

/-- Before a head is complete there is no blank line. -/
theorem IsHead.not_infix {buffer more : Bytes} (h : IsHead (buffer ++ more)) (hmore : more ≠ []) :
    ¬ blankLine <:+: buffer := by
  intro hinside
  refine h.2 (hinside.trans ?_)
  rw [List.dropLast_append_of_ne_nil hmore]
  exact (List.prefix_append _ _).isInfix

theorem nextFrom_of_arrived {head : Bytes} (h : IsHead head) (rest : Bytes)
    (portions : List Bytes) : nextFrom (head ++ rest) portions = .head head ⟨rest, portions⟩ := by
  rw [nextFrom.eq_def, cut?_of_isHead h]

theorem nextFrom_of_full {buffer : Bytes} (hnone : cut? buffer = none)
    (hfull : maxHeadLength ≤ buffer.length) (portions : List Bytes) :
    nextFrom buffer portions = .ended .tooLarge := by
  rw [nextFrom.eq_def, hnone]
  exact if_pos hfull

theorem nextFrom_of_room {buffer : Bytes} (hnone : cut? buffer = none)
    (hroom : buffer.length < maxHeadLength) (portion : Bytes) (portions : List Bytes) :
    nextFrom buffer (portion :: portions) = nextFrom (buffer ++ portion) portions := by
  rw [nextFrom, hnone]
  exact if_neg (Nat.not_le.mpr hroom)

/-! ### Pauses -/

/-- The number of bytes that have arrived after a number of reads. -/
def arrived (feed : Feed) (reads : Nat) : Nat :=
  (feed.buffer ++ (feed.portions.take reads).flatten).length

/-- A read ends between two places of the stream, or at the first of them. -/
def PausesBetween (feed : Feed) (low high : Nat) : Prop :=
  ∃ reads, low ≤ feed.arrived reads ∧ feed.arrived reads < high

@[simp] theorem arrived_zero (feed : Feed) : feed.arrived 0 = feed.buffer.length := by
  simp [arrived]

theorem arrived_succ (buffer portion : Bytes) (portions : List Bytes) (reads : Nat) :
    arrived ⟨buffer, portion :: portions⟩ (reads + 1) =
      arrived ⟨buffer ++ portion, portions⟩ reads := by
  simp [arrived]

theorem length_buffer_le_arrived (feed : Feed) (reads : Nat) :
    feed.buffer.length ≤ feed.arrived reads := by
  simp [arrived]

/-- There is no pause within what has arrived. -/
theorem not_pausesBetween {feed : Feed} {high : Nat} (h : high ≤ feed.buffer.length) (low : Nat) :
    ¬ feed.PausesBetween low high := by
  rintro ⟨reads, -, hhigh⟩
  have := length_buffer_le_arrived feed reads
  omega

/-- Reading on keeps the pauses behind what has arrived. -/
theorem pausesBetween_read {buffer : Bytes} {low : Nat} (h : buffer.length < low)
    (portion : Bytes) (portions : List Bytes) (high : Nat) :
    PausesBetween ⟨buffer, portion :: portions⟩ low high ↔
      PausesBetween ⟨buffer ++ portion, portions⟩ low high := by
  constructor
  · rintro ⟨reads, hlow, hhigh⟩
    cases reads with
    | zero =>
      rw [arrived_zero] at hlow
      exact absurd hlow (Nat.not_le.mpr h)
    | succ reads =>
      rw [arrived_succ] at hlow hhigh
      exact ⟨reads, hlow, hhigh⟩
  · rintro ⟨reads, hlow, hhigh⟩
    rw [← arrived_succ] at hlow hhigh
    exact ⟨reads + 1, hlow, hhigh⟩

/-- Taking bytes off the front moves the pauses. -/
theorem pausesBetween_append (front rest : Bytes) (portions : List Bytes) (low high : Nat) :
    PausesBetween ⟨rest, portions⟩ low high ↔
      PausesBetween ⟨front ++ rest, portions⟩ (front.length + low) (front.length + high) := by
  have harrived (reads : Nat) : arrived ⟨front ++ rest, portions⟩ reads =
      front.length + arrived ⟨rest, portions⟩ reads := by
    simp [arrived]
  simp only [PausesBetween, harrived, Nat.add_le_add_iff_left, Nat.add_lt_add_iff_left]

/-- If reads are short, one of them ends between two places that are far apart. -/
theorem pausesBetween_of_short {portions : List Bytes} {length low high : Nat} {buffer : Bytes}
    (hshort : ∀ portion ∈ portions, portion.length ≤ length) (hfar : low + length ≤ high)
    (hbuffer : buffer.length < high) (hbytes : high ≤ (buffer ++ portions.flatten).length) :
    PausesBetween ⟨buffer, portions⟩ low high := by
  induction portions generalizing buffer with
  | nil =>
    rw [List.flatten_nil, List.append_nil] at hbytes
    omega
  | cons portion portions ih =>
    rcases Nat.lt_or_ge buffer.length low with hlow | hlow
    · rw [pausesBetween_read hlow]
      refine ih (fun p hp => hshort p (List.mem_cons_of_mem _ hp)) ?_ ?_
      · have := hshort portion List.mem_cons_self
        rw [List.length_append]
        omega
      · rwa [List.flatten_cons, ← List.append_assoc] at hbytes
    · exact ⟨0, by simpa using hlow, by simpa using hbuffer⟩

/-! ### The next head -/

/-- What becomes of a head in front: where a read ends with the limit reached and the head not
complete the connection is given up, and otherwise the head is taken and nothing else. -/
structure Meets (feed : Feed) (head rest : Bytes) : Prop where
  refused : feed.PausesBetween maxHeadLength head.length → feed.next = .ended .tooLarge
  taken : ¬ feed.PausesBetween maxHeadLength head.length →
    ∃ after : Feed, feed.next = .head head after ∧ after.bytes = rest ∧
      ∀ low high, after.PausesBetween low high ↔
        feed.PausesBetween (head.length + low) (head.length + high)

/-- A head that has arrived is taken. -/
theorem meets_of_arrived {head : Bytes} (h : IsHead head) (more : Bytes) (portions : List Bytes) :
    Meets ⟨head ++ more, portions⟩ head (more ++ portions.flatten) where
  refused hpause := absurd hpause (not_pausesBetween (by simp) _)
  taken _ := ⟨⟨more, portions⟩, nextFrom_of_arrived h more portions, rfl,
    pausesBetween_append head more portions⟩

/-- Reading on changes nothing for a head of which a part has arrived. -/
theorem Meets.of_read {buffer portion head rest : Bytes} {portions : List Bytes}
    (h : Meets ⟨buffer ++ portion, portions⟩ head rest) (hnone : cut? buffer = none)
    (hroom : buffer.length < maxHeadLength) (hpart : buffer.length < head.length) :
    Meets ⟨buffer, portion :: portions⟩ head rest := by
  have hnext : next ⟨buffer, portion :: portions⟩ = next ⟨buffer ++ portion, portions⟩ :=
    nextFrom_of_room hnone hroom portion portions
  constructor
  · rw [pausesBetween_read hroom, hnext]
    exact h.refused
  · rw [pausesBetween_read hroom, hnext]
    intro hpause
    obtain ⟨after, hafter, hbytes, hpauses⟩ := h.taken hpause
    refine ⟨after, hafter, hbytes, fun low high => ?_⟩
    rw [hpauses, pausesBetween_read (by omega)]

/-- However a head arrives, only the limit keeps it from being taken. -/
theorem meets_of_isHead {head rest : Bytes} (hhead : IsHead head) {portions : List Bytes}
    {buffer : Bytes} (h : buffer ++ portions.flatten = head ++ rest) :
    Meets ⟨buffer, portions⟩ head rest := by
  induction portions generalizing buffer with
  | nil =>
    rw [List.flatten_nil, List.append_nil] at h
    subst h
    simpa using meets_of_arrived hhead rest []
  | cons portion portions ih =>
    rcases List.append_eq_append_iff.mp h with ⟨more, rfl, hrest⟩ | ⟨more, rfl, rfl⟩
    · by_cases hnil : more = []
      · subst hnil
        rw [List.append_nil] at hhead ⊢
        have hmeets := meets_of_arrived hhead [] (portion :: portions)
        rwa [List.append_nil, hrest, List.nil_append, List.nil_append] at hmeets
      · -- A part of the head is still to come.
        have hnone : cut? buffer = none := cut?_eq_none (hhead.not_infix hnil)
        have hpart : buffer.length < (buffer ++ more).length := by
          have := List.length_pos_iff.mpr hnil
          rw [List.length_append]
          omega
        rcases Nat.lt_or_ge buffer.length maxHeadLength with hroom | hfull
        · refine (ih ?_).of_read hnone hroom hpart
          rw [← h, List.flatten_cons, List.append_assoc]
        · refine ⟨fun _ => nextFrom_of_full hnone hfull _, fun hpause => absurd ?_ hpause⟩
          exact ⟨0, by simpa using hfull, by simpa using hpart⟩
    · exact meets_of_arrived hhead more (portion :: portions)

/-- However a head arrives that keeps to the limit, it is the next one that is taken. -/
theorem nextFrom_of_isHead {head rest : Bytes} (hhead : IsHead head)
    (hlength : head.length ≤ maxHeadLength) {portions : List Bytes} {buffer : Bytes}
    (h : buffer ++ portions.flatten = head ++ rest) :
    ∃ feed : Feed, nextFrom buffer portions = .head head feed ∧ feed.bytes = rest := by
  obtain ⟨after, hnext, hbytes, -⟩ := (meets_of_isHead hhead h).taken fun ⟨_, hlow, hhigh⟩ => by
    omega
  exact ⟨after, hnext, hbytes⟩

/-- Without a blank line to come, reading ends as the bytes say. -/
theorem nextFrom_of_unbroken {portions : List Bytes} {buffer : Bytes}
    (h : ¬ blankLine <:+: buffer ++ portions.flatten) :
    nextFrom buffer portions = .ended (endingOf (buffer ++ portions.flatten)) := by
  induction portions generalizing buffer with
  | nil =>
    rw [List.flatten_nil, List.append_nil] at h ⊢
    rw [nextFrom, cut?_eq_none h, endingOf]
    split_ifs <;> rfl
  | cons portion portions ih =>
    have hbuffer : ¬ blankLine <:+: buffer := fun hinside =>
      h (hinside.trans (List.prefix_append _ _).isInfix)
    rw [nextFrom, cut?_eq_none hbuffer]
    simp only
    split_ifs with hlarge
    · have hall : maxHeadLength ≤ (buffer ++ (portion :: portions).flatten).length := by
        rw [List.length_append]
        omega
      rw [endingOf, if_pos hall]
    · rw [List.flatten_cons, ← List.append_assoc] at h ⊢
      exact ih h

/-! ### All heads of a feed -/

theorem heads_of_next_ended {feed : Feed} {ending : Ending} (h : feed.next = .ended ending) :
    feed.heads = ([], ending) := by
  rw [heads]
  split
  · rename_i he
    obtain rfl := Step.ended.inj (h.symm.trans he)
    rfl
  · rename_i he
    cases h.symm.trans he

theorem heads_of_next_head {feed rest : Feed} {head : Bytes} (h : feed.next = .head head rest) :
    feed.heads = (head :: rest.heads.1, rest.heads.2) := by
  rw [heads]
  split
  · rename_i he
    cases h.symm.trans he
  · rename_i he
    obtain ⟨rfl, rfl⟩ := Step.head.inj (h.symm.trans he)
    rfl

/-- Heads in front come first, whatever follows them. -/
theorem heads_of_flatten {hs : List Bytes} (hheads : ∀ head ∈ hs, IsHead head)
    (hlength : ∀ head ∈ hs, head.length ≤ maxHeadLength) {feed : Feed} {stream : Bytes}
    (h : feed.bytes = hs.flatten ++ stream) :
    ∃ rest : Feed, rest.bytes = stream ∧ feed.heads = (hs ++ rest.heads.1, rest.heads.2) := by
  induction hs generalizing feed with
  | nil => exact ⟨feed, h, rfl⟩
  | cons head hs ih =>
    rw [List.flatten_cons, List.append_assoc] at h
    obtain ⟨next, hnext, hbytes⟩ :=
      nextFrom_of_isHead (hheads head List.mem_cons_self) (hlength head List.mem_cons_self) h
    obtain ⟨rest, hrest, hmore⟩ := ih (fun x hx => hheads x (List.mem_cons_of_mem _ hx))
      (fun x hx => hlength x (List.mem_cons_of_mem _ hx)) hbytes
    refine ⟨rest, hrest, ?_⟩
    rw [heads_of_next_head hnext, hmore, List.cons_append]

/-- The heads of a feed are those of its bytes, and reading ends with what is left of them. -/
theorem heads_eq {feed : Feed} (h : ∀ head ∈ headsOf feed.bytes, head.length ≤ maxHeadLength) :
    feed.heads = (headsOf feed.bytes, endingOf (remainderOf feed.bytes)) := by
  obtain ⟨hbytes, hheads, hremainder⟩ := headsOf_spec feed.bytes
  obtain ⟨rest, hrest, hall⟩ := heads_of_flatten hheads h hbytes
  have hended : rest.next = .ended (endingOf (remainderOf feed.bytes)) := by
    rw [← hrest] at hremainder ⊢
    exact nextFrom_of_unbroken hremainder
  rw [hall, heads_of_next_ended hended, List.append_nil]

end ProxyAuth.Feed
