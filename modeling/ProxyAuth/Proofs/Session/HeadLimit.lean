import Mathlib.Tactic
import ProxyAuth.Proofs.RequestHead
import ProxyAuth.Proofs.Session.Exchange

/-!
# Which heads meet the limit

A buffer is compared with the limit only after no head was found in it, so a head that is longer
than the limit is refused exactly where a read ends with the limit reached and the head not
complete.  Where a read brings the rest of such a head at once, the head is served like any other.

* `Leaves`: what earlier heads leave of a feed;
* `Leaves.pausesBetween`: where reads end, seen from the state that they leave;
* `arrived_ofBytes`: the reads of bytes that have all arrived;
* `head_refused_iff_pause`: which heads are refused, and what comes of the session.
-/

namespace ProxyAuth

namespace Feed

/-! ### Earlier heads -/

/-- Taking heads off one feed, one after the other, leaves another. -/
inductive Leaves : Feed → List Bytes → Feed → Prop
  | start (feed : Feed) : Leaves feed [] feed
  | head {feed next after : Feed} {head : Bytes} {heads : List Bytes}
      (hnext : feed.next = .head head next) (hrest : Leaves next heads after) :
      Leaves feed (head :: heads) after

/-- What is cut off is a head. -/
theorem isHead_of_cut? {buffer head rest : Bytes} (h : cut? buffer = some (head, rest)) :
    IsHead head := by
  obtain ⟨hbytes, hheads, hremainder⟩ := headsOf_spec buffer
  cases hall : headsOf buffer with
  | nil =>
    rw [hall, List.flatten_nil, List.nil_append] at hbytes
    rw [← hbytes] at hremainder
    rw [cut?_eq_none hremainder] at h
    cases h
  | cons first heads =>
    have hfirst : IsHead first := hheads first (by rw [hall]; exact List.mem_cons_self)
    rw [hall, List.flatten_cons, List.append_assoc] at hbytes
    rw [hbytes, cut?_of_isHead hfirst] at h
    obtain ⟨rfl, -⟩ := Prod.mk.inj (Option.some.inj h)
    exact hfirst

/-- What is taken off a feed is a head in front of its bytes. -/
theorem isHead_of_nextFrom {portions : List Bytes} {buffer head : Bytes} {rest : Feed}
    (h : nextFrom buffer portions = .head head rest) :
    IsHead head ∧ buffer ++ portions.flatten = head ++ rest.bytes := by
  induction portions generalizing buffer with
  | nil =>
    rw [nextFrom.eq_def] at h
    split at h
    · rename_i hcut
      cases h
      exact ⟨isHead_of_cut? hcut, by simp [bytes, (cut?_eq_some hcut).1]⟩
    · split at h <;> cases h
  | cons portion portions ih =>
    rw [nextFrom.eq_def] at h
    split at h
    · rename_i hcut
      cases h
      exact ⟨isHead_of_cut? hcut, by simp [bytes, (cut?_eq_some hcut).1]⟩
    · split at h
      · cases h
      · obtain ⟨hhead, hbytes⟩ := ih h
        rw [List.append_assoc] at hbytes
        exact ⟨hhead, by rwa [List.flatten_cons]⟩

namespace Leaves

variable {feed after : Feed} {heads : List Bytes}

theorem heads_eq (h : Leaves feed heads after) :
    feed.heads = (heads ++ after.heads.1, after.heads.2) := by
  induction h with
  | start => rfl
  | head hnext _ ih => rw [heads_of_next_head hnext, ih, List.cons_append]

theorem bytes_eq (h : Leaves feed heads after) : feed.bytes = heads.flatten ++ after.bytes := by
  induction h with
  | start => rfl
  | head hnext _ ih =>
    rw [List.flatten_cons, List.append_assoc, ← ih]
    exact (isHead_of_nextFrom hnext).2

/-- The reads of a feed, counted from what earlier heads leave of it. -/
theorem pausesBetween (h : Leaves feed heads after) (low high : Nat) :
    after.PausesBetween low high ↔
      feed.PausesBetween (heads.flatten.length + low) (heads.flatten.length + high) := by
  induction h with
  | start => simp
  | @head feed next after head heads hnext _ ih =>
    obtain ⟨hhead, hbytes⟩ := isHead_of_nextFrom hnext
    have hmeets : Meets feed head next.bytes := meets_of_isHead hhead hbytes
    by_cases hpause : feed.PausesBetween maxHeadLength head.length
    · cases hnext.symm.trans (hmeets.refused hpause)
    · obtain ⟨taken, htaken, -, hpauses⟩ := hmeets.taken hpause
      obtain ⟨-, rfl⟩ := Step.head.inj (hnext.symm.trans htaken)
      rw [ih, hpauses, List.flatten_cons, List.length_append, Nat.add_assoc, Nat.add_assoc]

end Leaves

/-- A head in front that keeps to the limit leaves what follows it. -/
theorem leaves_singleton {head rest : Bytes} (hhead : IsHead head)
    (hlength : head.length ≤ maxHeadLength) {portions : List Bytes}
    (h : [] ++ portions.flatten = head ++ rest) :
    ∃ after, Leaves ⟨[], portions⟩ [head] after ∧ after.bytes = rest := by
  obtain ⟨after, hnext, hbytes⟩ := nextFrom_of_isHead hhead hlength h
  exact ⟨after, .head hnext (.start after), hbytes⟩

/-! ### Bytes that have all arrived -/

theorem flatten_take_portionsOf (bytes : Bytes) (reads : Nat) :
    ((portionsOf bytes).take reads).flatten = bytes.take (reads * portionLength) := by
  induction reads generalizing bytes with
  | zero => simp
  | succ reads ih =>
    rw [portionsOf]
    split_ifs with hnil
    · simp [hnil]
    · rw [List.take_succ_cons, List.flatten_cons, ih, Nat.succ_mul, Nat.add_comm, List.take_add]

/-- Every read but the last brings as many bytes as a read can. -/
theorem arrived_ofBytes (bytes : Bytes) (reads : Nat) :
    (ofBytes bytes).arrived reads = min (reads * portionLength) bytes.length := by
  rw [arrived, ofBytes, List.nil_append, flatten_take_portionsOf, List.length_take]

theorem ne_nil_of_mem_portionsOf {bytes portion : Bytes} (h : portion ∈ portionsOf bytes) :
    portion ≠ [] := by
  fun_induction portionsOf bytes with
  | case1 => cases h
  | case2 bytes hnil ih =>
    rcases List.mem_cons.mp h with rfl | h
    · simpa [portionLength] using hnil
    · exact ih h

theorem flatten_portionsOf (bytes : Bytes) : (portionsOf bytes).flatten = bytes := by
  fun_induction portionsOf bytes with
  | case1 => rfl
  | case2 bytes hnil ih => rw [List.flatten_cons, ih, List.take_append_drop]

end Feed

/-! ### Heads of any length -/

namespace RequestHead

open Text

/-- The head of a request whose target has a number of further characters. -/
def padded (n : Nat) : Bytes :=
  Utf8.encode (Parts.render ⟨"GET".toList, '/' :: List.replicate n 'a', "HTTP/1.0".toList, []⟩)

theorem isHead_padded (n : Nat) : Feed.IsHead (padded n) := by
  have hword {word : Text} (h : word ≠ [] ∧ ' ' ∉ word ∧ '\n' ∉ word) : Parts.IsWord word :=
    ⟨h.1, h.2.1, not_infix_of_not_mem h.2.2⟩
  refine Parts.isHead_render ⟨hword ?_, hword ?_, hword ?_, ?_, ?_⟩
  · simp
  · simp
  · simp
  · exact ⟨['0'], rfl⟩
  · exact fun _ hfield => absurd hfield List.not_mem_nil

@[simp] theorem length_padded (n : Nat) : (padded n).length = n + 18 := by
  have hrender : Parts.render ⟨"GET".toList, '/' :: List.replicate n 'a', "HTTP/1.0".toList, []⟩ =
      "GET /".toList ++ List.replicate n 'a' ++ " HTTP/1.0\r\n\r\n".toList := by
    simp [Parts.render, Parts.requestLine, Page.headLines]
  have hfront : (Utf8.encode "GET /".toList).length = 5 := by decide
  have hback : (Utf8.encode " HTTP/1.0\r\n\r\n".toList).length = 13 := by decide
  have hascii : ∀ c ∈ List.replicate n 'a', c.toNat < 0x80 := fun c hc => by
    rw [List.eq_of_mem_replicate hc]
    decide
  rw [padded, hrender, Utf8.encode_append, Utf8.encode_append, List.length_append,
    List.length_append, hfront, hback, Utf8.length_encode_of_lt hascii, List.length_replicate]
  omega

end RequestHead

/-! ### Refused heads -/

namespace Session

open Feed

/-- **Which heads are refused.**  Heads were taken off a connection, and another is in front of what
they leave.  Looking for it fails as too large exactly where a read of the connection ends with the
limit reached and the head not complete; then the session is that of the earlier heads, and this
one is neither read as a request nor answered.  Otherwise it is taken and served, however long it
is.  Only a head that exceeds the limit by the longest read is refused whatever the reads are. -/
theorem head_refused_iff_pause (policy : Policy) (link : Link) {portions heads : List Bytes}
    {state : Feed} (hstate : Leaves ⟨[], portions⟩ heads state) {head stream : Bytes}
    (hhead : IsHead head) (hbytes : state.bytes = head ++ stream) :
    let offset := heads.flatten.length
    let refused := PausesBetween ⟨[], portions⟩ (offset + maxHeadLength) (offset + head.length)
    (state.next = .ended .tooLarge ↔ refused) ∧
    (refused → ∀ moments known, serve policy link moments known ⟨[], portions⟩ =
      serveHeads policy link .tooLarge moments (start known) heads) ∧
    (¬ refused → ∃ after : Feed, state.next = .head head after ∧ after.bytes = stream ∧
      ∀ moments known, serve policy link moments known ⟨[], portions⟩ =
        serveHeads policy link after.heads.2 moments (start known)
          (heads ++ head :: after.heads.1)) ∧
    ∀ length, (∀ portion ∈ portions, portion.length ≤ length) →
      maxHeadLength + length ≤ head.length → refused := by
  intro offset refused
  have hmeets : Meets state head stream := meets_of_isHead hhead hbytes
  have hpauses : state.PausesBetween maxHeadLength head.length ↔ refused :=
    hstate.pausesBetween maxHeadLength head.length
  have hrefused (h : refused) : state.next = .ended .tooLarge := hmeets.refused (hpauses.mpr h)
  refine ⟨⟨fun hended => ?_, hrefused⟩, fun h moments known => ?_, fun h => ?_, ?_⟩
  · by_contra h
    obtain ⟨after, hnext, -⟩ := hmeets.taken (hpauses.not.mpr h)
    cases hnext.symm.trans hended
  · rw [serve, hstate.heads_eq, heads_of_next_ended (hrefused h), List.append_nil]
  · obtain ⟨after, hnext, hafter, -⟩ := hmeets.taken (hpauses.not.mpr h)
    refine ⟨after, hnext, hafter, fun moments known => ?_⟩
    rw [serve, hstate.heads_eq, heads_of_next_head hnext]
  · intro length hshort hfar
    have hall : [] ++ portions.flatten = heads.flatten ++ (head ++ stream) := by
      rw [← hbytes]
      exact hstate.bytes_eq
    have hpos := List.length_pos_iff.mpr hhead.ne_nil
    refine pausesBetween_of_short hshort (by omega) (by simp only [List.length_nil]; omega) ?_
    rw [hall]
    simp only [List.length_append]
    omega

/-- Behind an answered head, an overlong one that comes byte by byte is refused. -/
theorem head_refused_byte_by_byte :
    let policy : Policy := ⟨true, .empty, [], .ofSeconds 60, .ofSeconds 7200⟩
    let moments : Nat → Moment := fun _ => ⟨⟨.ofParts 1700000000 0, ⟨0⟩⟩, none⟩
    let first := RequestHead.padded 0
    let second := RequestHead.padded 16382
    let portions := (first ++ second).map fun b => [b]
    ∃ state, Leaves ⟨[], portions⟩ [first] state ∧ state.bytes = second ++ [] ∧
      state.next = .ended .tooLarge ∧
      (serve policy ⟨⟨.v4 7, 5000⟩, 80⟩ moments (.empty (.ofSeconds 7200)) ⟨[], portions⟩).written =
        [Page.challenge Digest.realm "6553f100".toList] := by
  intro policy moments first second portions
  have hlength : second.length = 16400 := RequestHead.length_padded 16382
  have hbytes : [] ++ portions.flatten = first ++ second := by
    rw [List.nil_append, ← List.flatMap_def, List.flatMap_singleton']
  have hshort : ∀ portion ∈ portions, portion.length ≤ 1 := by
    intro portion hportion
    obtain ⟨b, -, rfl⟩ := List.mem_map.mp hportion
    exact le_rfl
  obtain ⟨state, hleaves, hstate⟩ := leaves_singleton (RequestHead.isHead_padded 0)
    (by simp [maxHeadLength]) hbytes
  have hrest : state.bytes = second ++ [] := by rw [hstate, List.append_nil]
  obtain ⟨hended, hserved, -, hrefused⟩ := head_refused_iff_pause policy ⟨⟨.v4 7, 5000⟩, 80⟩ hleaves
    (RequestHead.isHead_padded 16382) hrest
  have hpause := hrefused 1 hshort (by rw [hlength]; decide)
  refine ⟨state, hleaves, hrest, hended.mpr hpause, ?_⟩
  rw [hserved hpause]
  decide +kernel

/-- An overlong head is taken if its end comes with the read that passes the limit, as it does here
with reads of the usual length: the head in front of it has shifted where they end. -/
theorem not_refused_when_overlong :
    ¬ ∀ (portions heads : List Bytes) (state : Feed) (head stream : Bytes),
      (∀ portion ∈ portions, portion ≠ []) → Leaves ⟨[], portions⟩ heads state → IsHead head →
      maxHeadLength < head.length → state.bytes = head ++ stream →
      state.next = .ended .tooLarge := by
  intro hrefused
  obtain ⟨first, hfirst, hfirstLength⟩ : ∃ first, IsHead first ∧ first.length = 18 :=
    ⟨_, RequestHead.isHead_padded 0, RequestHead.length_padded 0⟩
  obtain ⟨second, hsecond, hlength⟩ : ∃ second, IsHead second ∧ second.length = 16400 :=
    ⟨_, RequestHead.isHead_padded 16382, RequestHead.length_padded 16382⟩
  have hbytes : [] ++ (portionsOf (first ++ second)).flatten = first ++ second :=
    flatten_portionsOf _
  obtain ⟨state, hleaves, hstate⟩ := leaves_singleton hfirst
    (by rw [hfirstLength]; decide) hbytes
  have hrest : state.bytes = second ++ [] := by rw [hstate, List.append_nil]
  have hended := hrefused _ [first] state second [] (fun _ => ne_nil_of_mem_portionsOf) hleaves
    hsecond (by rw [hlength]; decide) hrest
  -- The fourth read ends before the limit, and the fifth with the head complete.
  have hpause : ¬ state.PausesBetween maxHeadLength second.length := by
    rw [hleaves.pausesBetween]
    rintro ⟨reads, hlow, hhigh⟩
    have harrived : arrived ⟨[], portionsOf (first ++ second)⟩ reads =
        min (reads * portionLength) (first ++ second).length := arrived_ofBytes _ _
    simp only [harrived, List.flatten_singleton, List.length_append, hfirstLength, hlength,
      portionLength, maxHeadLength] at hlow hhigh
    omega
  obtain ⟨after, htaken, -⟩ := (meets_of_isHead hsecond hrest).taken hpause
  cases htaken.symm.trans hended

end Session

end ProxyAuth
