import Mathlib.Tactic
import ProxyAuth.Client
import ProxyAuth.Proofs.Header.Lookup
import ProxyAuth.Proofs.Header.Printed

/-!
# What a reader finds in an answer

A client builds its answer by adding parameters of different names to a header of digest
authentication.  Whoever reads the text of the answer finds that header again, and in it exactly the
values that were added (`parse_of_answer`).  The text can be sent on a line of its own, where a
reader that trims the line finds it unchanged (`sendable_of_answer`).
-/

namespace ProxyAuth

open Text

namespace Client

open Header

theorem addAll_cons_eq_ok {h stored : Header} {p : Text × Text} {rest : List (Text × Text)} :
    addAll h (p :: rest) = .ok stored ↔
      ∃ next, (h.add p.1 p.2).result = .ok next ∧ addAll next rest = .ok stored :=
  bind_eq_ok

/-- Adding parameters under lower-case names: the scheme stays, every look-up finds what was there
or else what was added, and the header stays one that calls can build. -/
theorem addAll_spec {ps : List (Text × Text)} {h stored : Header}
    (hlower : ∀ p ∈ ps, lower p.1 = p.1) (hs : addAll h ps = .ok stored) :
    stored.scheme = h.scheme ∧ (Reachable h → Reachable stored) ∧
      ∀ name, stored.get? name = (h.get? name).or (ps.lookup (lower name)) := by
  induction ps generalizing h with
  | nil =>
    obtain rfl := Except.ok.inj hs
    exact ⟨rfl, id, fun name => by simp⟩
  | cons p rest ih =>
    obtain ⟨next, hadd, hrest⟩ := addAll_cons_eq_ok.mp hs
    obtain ⟨hscheme, hreach, hget⟩ := ih (fun q hq => hlower q (List.mem_cons_of_mem _ hq)) hrest
    refine ⟨hscheme.trans (scheme_of_store hadd), fun hr => hreach (hr.store hadd), fun name => ?_⟩
    have hp : lower p.1 = p.1 := hlower p List.mem_cons_self
    rw [hget, get?_of_store hadd, List.lookup_cons, hp]
    by_cases he : lower name = p.1
    · -- Adding succeeded, so the name was not there before.
      have hnone : h.get? name = none := by
        have h1 : h.get? name = h.get? p.1 := by
          show h.parameters.lookup (lower name) = h.parameters.lookup (lower p.1)
          rw [he, hp]
        rw [h1, get?_eq_none_of_add hadd]
      simp [he, hnone]
    · have hb : (lower name == p.1) = false := beq_eq_false_iff_ne.mpr he
      simp [he, hb]

/-- Parameters of different new names can be added as long as there is room, exactly if all of them
are legal. -/
theorem addAll_eq_ok_iff {ps : List (Text × Text)} {h stored : Header}
    (hlower : ∀ p ∈ ps, lower p.1 = p.1) (hdistinct : (ps.map Prod.fst).Nodup)
    (hnew : ∀ p ∈ ps, h.get? p.1 = none)
    (hroom : h.parameters.length + ps.length ≤ maxParameters) :
    addAll h ps = .ok stored ↔ (∀ p ∈ ps, parameterFault? p.1 p.2 = none) ∧
      stored = ⟨h.scheme, ps.foldl (fun stored p => put p.1 p.2 stored) h.parameters⟩ := by
  induction ps generalizing h with
  | nil => simp [addAll, pure, Except.pure, eq_comm]
  | cons p rest ih =>
    obtain ⟨hp, hlower⟩ := List.forall_mem_cons.mp hlower
    obtain ⟨hpnew, hnew⟩ := List.forall_mem_cons.mp hnew
    obtain ⟨hpdistinct, hdistinct⟩ := List.nodup_cons.mp hdistinct
    rw [List.length_cons] at hroom
    -- The header after one more parameter, which the others find as new as they are.
    let next : Header := ⟨h.scheme, put p.1 p.2 h.parameters⟩
    have hadd : ∀ {other}, (h.add p.1 p.2).result = .ok other ↔
        parameterFault? p.1 p.2 = none ∧ other = next := by
      intro other
      have hlt : h.parameters.length < maxParameters := by omega
      rw [add, result_store_eq_ok_iff, hpnew, hp]
      simp [next, hlt]
    have hnextnew : ∀ q ∈ rest, next.get? q.1 = none := by
      intro q hq
      have hne : q.1 ≠ p.1 := fun he => hpdistinct (he ▸ List.mem_map_of_mem (f := Prod.fst) hq)
      have hqnew := hnew q hq
      rw [get?, hlower q hq] at hqnew ⊢
      rw [lookup_put_of_ne p.2 h.parameters hne, hqnew]
    have hnextroom : next.parameters.length + rest.length ≤ maxParameters := by
      have hput : next.parameters.length ≤ h.parameters.length + 1 := length_put_le ..
      omega
    rw [addAll_cons_eq_ok, List.forall_mem_cons, List.foldl_cons]
    simp only [hadd, and_assoc, exists_and_left, exists_eq_left,
      ih hlower hdistinct hnextnew hnextroom]
    rfl

variable {c : Client} {challenge : Challenge} {method target clientNonce text : Text}

/-- The names of the parameters of an answer, in the order in which they are added. -/
def parameterNames : List Text :=
  ["username", "realm", "nonce", "uri", "qop", "nc", "cnonce", "response"].map String.toList

theorem map_fst_parameters :
    (c.parameters challenge method target clientNonce).map Prod.fst = parameterNames := rfl

theorem fst_mem_of_mem_parameters {p : Text × Text}
    (hp : p ∈ c.parameters challenge method target clientNonce) : p.1 ∈ parameterNames :=
  List.mem_map_of_mem (f := Prod.fst) hp

theorem lower_name_of_parameters :
    ∀ p ∈ c.parameters challenge method target clientNonce, lower p.1 = p.1 := by
  have hnames : ∀ name ∈ parameterNames, lower name = name := by decide
  exact fun p hp => hnames p.1 (fst_mem_of_mem_parameters hp)

theorem ofScheme_digest : ofScheme "Digest".toList = .ok ⟨"Digest".toList, []⟩ := by decide

theorem header_eq_addAll (c : Client) (challenge : Challenge) (method target clientNonce : Text) :
    c.header challenge method target clientNonce =
      addAll ⟨"Digest".toList, []⟩ (c.parameters challenge method target clientNonce) := by
  rw [Client.header, ofScheme_digest]
  rfl

/-- The header of an answer is one that calls can build. -/
theorem header_spec {header : Header}
    (h : c.header challenge method target clientNonce = .ok header) :
    WellFormed header ∧ header.isDigest = true ∧ header.parameters ≠ [] ∧
      ∀ name, header.get? name =
        (c.parameters challenge method target clientNonce).lookup (lower name) := by
  rw [header_eq_addAll] at h
  obtain ⟨hscheme, hreach, hget⟩ := addAll_spec lower_name_of_parameters h
  have hwell := (hreach (reachable_of_ofScheme ofScheme_digest)).wellFormed
  refine ⟨hwell, ?_, ?_, fun name => hget name⟩
  · rw [isDigest, hscheme]
    decide
  · -- Without parameters no user name would be found.
    intro he
    have hname := hget "username".toList
    rw [get?, he] at hname
    cases hname

/-- An answer is the text of the header for the next count. -/
theorem answer_eq_ok_iff : (c.answer challenge method target clientNonce).1 = .ok text ↔
    c.count ≠ maxCount ∧ ∃ header,
      c.next.header challenge method target clientNonce = .ok header ∧ header.render = text := by
  unfold answer
  split_ifs with hcount
  · exact iff_of_false nofun fun h => h.1 hcount
  · rw [mapError_eq_ok, map_eq_ok, and_iff_right hcount]

/-- **What a reader finds in an answer**: a header of digest authentication in which every look-up
finds the parameter of the client. -/
theorem parse_of_answer (h : (c.answer challenge method target clientNonce).1 = .ok text) :
    ∃ header, Header.parse text = .ok header ∧ header.isDigest = true ∧ header.parameters ≠ [] ∧
      ∀ name, header.get? name =
        (c.next.parameters challenge method target clientNonce).lookup (lower name) := by
  obtain ⟨-, header, hheader, rfl⟩ := answer_eq_ok_iff.mp h
  obtain ⟨hwell, hdigest, hne, hget⟩ := header_spec hheader
  exact ⟨header, hwell.parse_render hne, hdigest, hne, hget⟩

/-- An answer fits on a header line: nothing in it ends the line, and trimming the line leaves it as
it is. -/
theorem sendable_of_answer (h : (c.answer challenge method target clientNonce).1 = .ok text) :
    text ≠ [] ∧ IsTrimmed text ∧ ∀ c ∈ text, isForbidden c = false := by
  obtain ⟨-, header, hheader, rfl⟩ := answer_eq_ok_iff.mp h
  obtain ⟨hwell, -, hne, -⟩ := header_spec hheader
  refine ⟨?_, hwell.isTrimmed_render, hwell.not_forbidden_render⟩
  rw [render, if_neg hne]
  simp

end Client

end ProxyAuth
