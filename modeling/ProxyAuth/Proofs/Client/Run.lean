import Mathlib.Tactic
import ProxyAuth.Proofs.Client.Answer
import ProxyAuth.Proofs.Digest
import ProxyAuth.Proofs.Header.Calls
import ProxyAuth.Proofs.Text.Numeral

/-!
# Runs of a client

A client that is called again and again gives every answer the next count, also after a call that
was refused.  While there is a next count a call is refused only for a text that does not fit into a
header, and what it returns otherwise is read back as one fixed header, with the count in eight
digits.  So no count is sent twice.

* `Answerable`, `IsCount`, `headerFor`: which calls succeed, and with which header;
* `header_eq_ok_iff`: one answer;
* `after_spec`, `getElem?_replies`: a run of calls;
* `replies_have_different_counts`: the run as a whole.
-/

namespace ProxyAuth.Client

open Text Header

/-- One request for an answer. -/
structure Call where
  challenge : Challenge
  method : Text
  target : Text
  clientNonce : Text
  deriving DecidableEq

/-- What a call returns, and the client after it. -/
def reply (c : Client) (call : Call) : Except Client.Fault Text × Client :=
  c.answer call.challenge call.method call.target call.clientNonce

/-- The client after calls. -/
def after (c : Client) (calls : List Call) : Client :=
  calls.foldl (fun c call => (c.reply call).2) c

/-- What the calls return. -/
def replies : Client → List Call → List (Except Client.Fault Text)
  | _, [] => []
  | c, call :: calls => (c.reply call).1 :: replies (c.reply call).2 calls

/-- The texts that an answer holds besides those that the client computes are legal values. -/
structure Answerable (name : Text) (call : Call) : Prop where
  name : IsValue name
  realm : IsValue call.challenge.realm
  nonce : IsValue call.challenge.nonce
  target : IsValue call.target
  clientNonce : IsValue call.clientNonce

theorem answerable_iff {name : Text} {call : Call} : Answerable name call ↔ IsValue name ∧
    IsValue call.challenge.realm ∧ IsValue call.challenge.nonce ∧ IsValue call.target ∧
      IsValue call.clientNonce :=
  ⟨fun h => ⟨h.name, h.realm, h.nonce, h.target, h.clientNonce⟩,
    fun ⟨h1, h2, h3, h4, h5⟩ => ⟨h1, h2, h3, h4, h5⟩⟩

instance (name : Text) (call : Call) : Decidable (Answerable name call) :=
  decidable_of_iff _ answerable_iff.symm

/-- The text is the number in eight hexadecimal digits in lower case. -/
structure IsCount (text : Text) (n : Nat) : Prop where
  length_eq : text.length = 8
  isNumeral : IsNumeral 16 text n
  isDigit : ∀ ch ∈ text, ∃ d < 16, ch = Nat.digitChar d

/-- The header of the answer with a count. -/
def headerFor (c : Client) (call : Call) (count : Text) : Header :=
  let key := Digest.key c.name call.challenge.realm c.secret
  let fields : Digest.Fields :=
    ⟨call.challenge.nonce, count, call.clientNonce, call.method, call.target⟩
  { scheme := "Digest".toList
    parameters :=
      [("cnonce".toList, call.clientNonce), ("nc".toList, count),
        ("nonce".toList, call.challenge.nonce), ("qop".toList, "auth".toList),
        ("realm".toList, call.challenge.realm), ("response".toList, Digest.response key fields),
        ("uri".toList, call.target), ("username".toList, c.name)] }

/-- A text that can be sent and is read as the header with the count. -/
structure IsAnswer (c : Client) (call : Call) (n : Nat) (text : Text) : Prop where
  eq_tab_of_isControl : ∀ ch ∈ text, isControl ch = true → ch = '\t'
  parse_eq : ∃ count, IsCount count n ∧ Header.parse text = .ok (c.headerFor call count)

variable {c : Client} {call : Call} {n : Nat} {s text count : Text}

/-! ### The texts that a client computes -/

/-- A number of at most eight digits is filled up to eight. -/
theorem isCount_paddedHexadecimal (h : n < 2 ^ 32) : IsCount (paddedHexadecimal 8 n) n where
  length_eq := by
    have hle : (hexadecimal n).length ≤ 8 := by
      rw [hexadecimal, Nat.length_toDigits_le_iff (by decide) (by decide)]
      omega
    rw [paddedHexadecimal, List.length_leftpad, max_eq_left hle]
  isNumeral := (isNumeral_hexadecimal n).leftpad (by decide) 8
  isDigit ch hch := by
    rcases List.mem_append.mp hch with hch | hch
    · exact ⟨0, by decide, List.eq_of_mem_replicate hch⟩
    · exact exists_digitChar_of_mem_toDigits (by decide) hch

theorem isCount_countText (c : Client) : IsCount c.countText c.count.toNat :=
  isCount_paddedHexadecimal c.count.toNat_lt

theorem IsCount.inj {m : Nat} (h : IsCount count n) (h' : IsCount count m) : n = m :=
  h.isNumeral.inj (by decide) h'.isNumeral

theorem isToken_of_digits (hne : s ≠ []) (h : ∀ ch ∈ s, ∃ d < 16, ch = Nat.digitChar d) :
    isToken s = true := by
  refine isToken_iff.mpr ⟨hne, fun ch hch => isTokenChar_of_hexValue? ?_⟩
  obtain ⟨d, hd, rfl⟩ := h ch hch
  rw [hexValue?_digitChar d hd]
  rfl

theorem isValue_of_isToken (h : isToken s = true) (hle : s.length ≤ 2048) : IsValue s :=
  isValue_iff.mpr ⟨(byteLength_of_isToken h).trans_le hle, not_forbidden_of_isToken h⟩

theorem IsCount.isValue (h : IsCount count n) : IsValue count := by
  have hne : count ≠ [] := List.ne_nil_of_length_eq_add_one h.length_eq
  exact isValue_of_isToken (isToken_of_digits hne h.isDigit) (by rw [h.length_eq]; decide)

theorem isValue_response (key : Text) (fields : Digest.Fields) :
    IsValue (Digest.response key fields) := by
  have hlength : (Digest.response key fields).length = 32 := Digest.length_ofText _
  have hne : Digest.response key fields ≠ [] := List.ne_nil_of_length_eq_add_one hlength
  exact isValue_of_isToken (isToken_of_digits hne fun _ => MD5.exists_digitChar_of_mem_hex)
    (by rw [hlength]; decide)

/-! ### One answer -/

theorem isName_of_parameters :
    ∀ p ∈ c.parameters call.challenge call.method call.target call.clientNonce, IsName p.1 := by
  have hnames : ∀ name ∈ parameterNames, IsName name := by decide
  exact fun p hp => hnames p.1 (fst_mem_of_mem_parameters hp)

/-- All parameters of an answer are legal exactly if the texts that it is given are. -/
theorem parameters_legal_iff :
    (∀ p ∈ c.parameters call.challenge call.method call.target call.clientNonce,
      parameterFault? p.1 p.2 = none) ↔ Answerable c.name call := by
  have hqop : IsValue Digest.protection := isValue_of_isToken (by decide) (by decide)
  have hnc : IsValue c.countText := c.isCount_countText.isValue
  calc (∀ p ∈ c.parameters call.challenge call.method call.target call.clientNonce,
        parameterFault? p.1 p.2 = none)
      ↔ ∀ p ∈ c.parameters call.challenge call.method call.target call.clientNonce,
          IsValue p.2 := forall₂_congr fun p hp => by
        rw [parameterFault?_eq_none_iff_isName, and_iff_right (isName_of_parameters p hp)]
    _ ↔ Answerable c.name call := by
        simp [parameters, hqop, hnc, isValue_response, answerable_iff]

/-- The parameters of an answer in the order in which they are kept. -/
theorem foldl_put_parameters (c : Client) (call : Call) :
    (⟨"Digest".toList,
      (c.parameters call.challenge call.method call.target call.clientNonce).foldl
        (fun stored p => put p.1 p.2 stored) []⟩ : Header) = c.headerFor call c.countText := by
  rfl

/-- Which header answers a call, if any. -/
theorem header_eq_ok_iff {header : Header} :
    c.header call.challenge call.method call.target call.clientNonce = .ok header ↔
      Answerable c.name call ∧ header = c.headerFor call c.countText := by
  have hdistinct : ((c.parameters call.challenge call.method call.target
      call.clientNonce).map Prod.fst).Nodup := by
    rw [map_fst_parameters]
    decide
  have hroom : (⟨"Digest".toList, []⟩ : Header).parameters.length + (c.parameters call.challenge
      call.method call.target call.clientNonce).length ≤ maxParameters := by
    show 0 + 8 ≤ 30
    decide
  rw [header_eq_addAll, addAll_eq_ok_iff lower_name_of_parameters hdistinct (fun _ _ => rfl) hroom,
    parameters_legal_iff, foldl_put_parameters]

theorem ne_maxCount_iff {count : UInt32} : count ≠ maxCount ↔ count.toNat < 2 ^ 32 - 1 := by
  have hlt := count.toNat_lt
  have hmax : maxCount.toNat = 2 ^ 32 - 1 := rfl
  rw [Ne, ← UInt32.toNat_inj]
  omega

/-- A count that is not the largest goes up by one. -/
theorem toNat_count_next (h : c.count ≠ maxCount) : c.next.count.toNat = c.count.toNat + 1 := by
  have hlt := ne_maxCount_iff.mp h
  rw [next, UInt32.toNat_add, UInt32.toNat_one]
  omega

/-- **One answer.**  Unless its count is the largest, a call succeeds exactly if the texts that it
is given are legal, and what it returns can be sent and is read as the header with the next
count. -/
theorem reply_spec (hcount : c.count ≠ maxCount) (call : Call) :
    ((∃ text, (c.reply call).1 = .ok text) ↔ Answerable c.name call) ∧
      ∀ text, (c.reply call).1 = .ok text → IsAnswer c call (c.count.toNat + 1) text := by
  have hheader {header : Header} : c.next.header call.challenge call.method call.target
      call.clientNonce = .ok header ↔
        Answerable c.name call ∧ header = c.headerFor call c.next.countText :=
    header_eq_ok_iff (c := c.next)
  constructor
  · constructor
    · rintro ⟨text, hreply⟩
      obtain ⟨-, header, h, -⟩ := answer_eq_ok_iff.mp hreply
      exact (hheader.mp h).1
    · intro h
      exact ⟨_, answer_eq_ok_iff.mpr ⟨hcount, _, hheader.mpr ⟨h, rfl⟩, rfl⟩⟩
  · intro text hreply
    obtain ⟨-, -, hforbidden⟩ := sendable_of_answer hreply
    obtain ⟨-, header, h, rfl⟩ := answer_eq_ok_iff.mp hreply
    obtain ⟨hwell, -, hne, -⟩ := header_spec h
    obtain ⟨-, rfl⟩ := hheader.mp h
    rw [← toNat_count_next hcount]
    exact ⟨fun ch hch => isForbidden_eq_false_iff.mp (hforbidden ch hch),
      c.next.countText, c.next.isCount_countText, hwell.parse_render hne⟩

/-! ### Runs -/

/-- While the counts fit, calls do nothing to a client but count, also those that are refused. -/
theorem after_spec (c : Client) (calls : List Call)
    (hfits : c.count.toNat + calls.length ≤ 2 ^ 32 - 1) :
    ∃ count : UInt32, count.toNat = c.count.toNat + calls.length ∧
      c.after calls = { c with count := count } := by
  induction calls generalizing c with
  | nil => exact ⟨c.count, rfl, rfl⟩
  | cons call calls ih =>
    rw [List.length_cons] at hfits
    have hcount : c.count ≠ maxCount := ne_maxCount_iff.mpr (by omega)
    have hnext : (c.reply call).2 = c.next := by rw [reply, answer, if_neg hcount]
    have htoNat := toNat_count_next hcount
    obtain ⟨count, hcounted, hafter⟩ := ih c.next (by omega)
    refine ⟨count, by rw [List.length_cons]; omega, ?_⟩
    show (c.reply call).2.after calls = _
    rw [hnext, hafter]
    rfl

/-- The count after the first calls of a run. -/
theorem after_take (c : Client) {calls : List Call}
    (hfits : c.count.toNat + calls.length ≤ 2 ^ 32 - 1) {i : Nat} (hi : i ≤ calls.length) :
    ∃ count : UInt32, count.toNat = c.count.toNat + i ∧
      c.after (calls.take i) = { c with count := count } := by
  have hlength : (calls.take i).length = i := List.length_take_of_le hi
  obtain ⟨count, hcount, hafter⟩ := c.after_spec (calls.take i) (by omega)
  exact ⟨count, by rw [hcount, hlength], hafter⟩

theorem length_replies (c : Client) (calls : List Call) :
    (c.replies calls).length = calls.length := by
  induction calls generalizing c with
  | nil => rfl
  | cons call calls ih => rw [replies, List.length_cons, ih, List.length_cons]

/-- Each call is answered by the client after the calls before it. -/
theorem getElem?_replies (c : Client) (calls : List Call) (i : Nat) :
    (c.replies calls)[i]? = calls[i]?.map fun call => ((c.after (calls.take i)).reply call).1 := by
  induction calls generalizing c i with
  | nil => rfl
  | cons call calls ih =>
    cases i with
    | zero => rfl
    | succ i => exact ih (c.reply call).2 i

/-- Each call of a run is answered like a single one, with a count that says which it is. -/
theorem exists_reply (c : Client) {calls : List Call}
    (hfits : c.count.toNat + calls.length ≤ 2 ^ 32 - 1) {i : Nat} {call : Call}
    (hcall : calls[i]? = some call) :
    ∃ result, (c.replies calls)[i]? = some result ∧
      ((∃ text, result = .ok text) ↔ Answerable c.name call) ∧
      ∀ text, result = .ok text → IsAnswer c call (c.count.toNat + i + 1) text := by
  obtain ⟨hi, -⟩ := List.getElem?_eq_some_iff.mp hcall
  obtain ⟨count, hcount, hafter⟩ := c.after_take hfits hi.le
  have hne : count ≠ maxCount := ne_maxCount_iff.mpr (by omega)
  obtain ⟨hok, hanswer⟩ := reply_spec (c := { c with count := count }) hne call
  refine ⟨_, by rw [getElem?_replies, hcall, hafter]; rfl, hok, fun text htext => ?_⟩
  obtain ⟨hcontrol, hparse⟩ := hanswer text htext
  rw [← hcount]
  exact ⟨hcontrol, hparse⟩

/-- The count that a reader finds in the answer of a call. -/
theorem exists_count_of_reply (c : Client) {calls : List Call}
    (hfits : c.count.toNat + calls.length ≤ 2 ^ 32 - 1) {i : Nat} {header : Header}
    (hreply : (c.replies calls)[i]? = some (.ok text)) (hparse : Header.parse text = .ok header) :
    ∃ count, header.get? "nc".toList = some count ∧
      IsCount count (c.count.toNat + i + 1) := by
  obtain ⟨call, hcall⟩ : ∃ call, calls[i]? = some call := by
    rw [getElem?_replies] at hreply
    obtain ⟨call, hcall, -⟩ := Option.map_eq_some_iff.mp hreply
    exact ⟨call, hcall⟩
  obtain ⟨result, hresult, -, hanswer⟩ := exists_reply c hfits hcall
  obtain rfl := Option.some.inj (hresult.symm.trans hreply)
  obtain ⟨count, hcount, hfound⟩ := (hanswer text rfl).parse_eq
  obtain rfl := Except.ok.inj (hfound.symm.trans hparse)
  exact ⟨count, rfl, hcount⟩

/-- **Answers of a run.**  While the counts fit into eight digits, a call is answered exactly if the
name and the texts that it is given have at most 2048 bytes each and no control character but the
tab, and it is counted in any case.  An answer has no control character but the tab either, and is
read as a header of digest authentication with eight parameters: the given texts, the quality of
protection, the count of the call and the request digest of them all.  So different answers of a
client have different counts. -/
theorem replies_have_different_counts (c : Client) (calls : List Call)
    (hfits : c.count.toNat + calls.length ≤ 2 ^ 32 - 1) :
    (∀ i ≤ calls.length, ∃ count : UInt32, count.toNat = c.count.toNat + i ∧
      c.after (calls.take i) = { c with count := count }) ∧
    (c.replies calls).length = calls.length ∧
    (∀ i call, calls[i]? = some call → ∃ result, (c.replies calls)[i]? = some result ∧
      ((∃ text, result = .ok text) ↔ Answerable c.name call) ∧
      ∀ text, result = .ok text → IsAnswer c call (c.count.toNat + i + 1) text) ∧
    ∀ (i j : Nat) (s t : Text) (h h' : Header), i ≠ j →
      (c.replies calls)[i]? = some (.ok s) → Header.parse s = .ok h →
      (c.replies calls)[j]? = some (.ok t) → Header.parse t = .ok h' →
      h.get? "nc".toList ≠ h'.get? "nc".toList := by
  refine ⟨fun i => c.after_take hfits, length_replies c calls, fun i call => exists_reply c hfits,
    ?_⟩
  intro i j s t h h' hne hs hh ht hh' heq
  obtain ⟨count, hget, hcount⟩ := exists_count_of_reply c hfits hs hh
  obtain ⟨count', hget', hcount'⟩ := exists_count_of_reply c hfits ht hh'
  obtain rfl : count = count' := by rwa [hget, hget', Option.some.injEq] at heq
  have hsame := hcount.inj hcount'
  omega

/-- Of three calls the second is refused for a line break in its target, and its count is left
out. -/
theorem replies_leave_out_refused_count :
    let c : Client := ⟨"alice".toList, "secret".toList, 8⟩
    let call (target : Text) : Call :=
      ⟨⟨Digest.realm, "6553f100".toList, none⟩, "GET".toList, target, "c".toList⟩
    let calls := [call "/".toList, call "/\n".toList, call "/".toList]
    c.count.toNat + calls.length ≤ 2 ^ 32 - 1 ∧ c.after calls = { c with count := 11 } ∧
      ∃ s fault t, (c.replies calls)[0]? = some (.ok s) ∧ IsAnswer c (call "/".toList) 9 s ∧
        (c.replies calls)[1]? = some (.error fault) ∧
        (c.replies calls)[2]? = some (.ok t) ∧ IsAnswer c (call "/".toList) 11 t := by
  intro c call calls
  have hfits : c.count.toNat + calls.length ≤ 2 ^ 32 - 1 := by decide
  obtain ⟨hafter, -, hreply, -⟩ := replies_have_different_counts c calls hfits
  have hanswerable : Answerable c.name (call "/".toList) := by decide
  have hrefused : ¬ Answerable c.name (call "/\n".toList) := by decide
  obtain ⟨first, hfirst, hok, hanswer⟩ := hreply 0 _ rfl
  obtain ⟨s, rfl⟩ := hok.mpr hanswerable
  obtain ⟨second, hsecond, hok', -⟩ := hreply 1 _ rfl
  obtain ⟨third, hthird, hok'', hanswer''⟩ := hreply 2 _ rfl
  obtain ⟨t, rfl⟩ := hok''.mpr hanswerable
  cases second with
  | ok text => exact absurd (hok'.mp ⟨text, rfl⟩) hrefused
  | error fault =>
    obtain ⟨count, hcount, hcounted⟩ := hafter 3 le_rfl
    obtain rfl : count = 11 := UInt32.toNat_inj.mp hcount
    exact ⟨hfits, hcounted, s, fault, t, hfirst, hanswer s rfl, hsecond, hthird,
      hanswer'' t rfl⟩

end ProxyAuth.Client
