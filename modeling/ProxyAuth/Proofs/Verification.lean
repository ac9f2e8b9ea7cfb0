import Mathlib.Tactic
import ProxyAuth.Verification

/-!
# What decides a verdict

The checks of a header fall into two parts.  The first part looks at the text and the clock only: it
either settles the verdict or leaves a header that `Presents` itself to the accounts.  The second
part depends on the accounts through one account, the usable one of the name that the header gives.

* `ofText_of_presents`, `ofText_of_not_presents`: the two parts;
* `kind_ofAccount`: the second part, up to the details that only the log tells;
* `ofText_eq_accepted_iff`: exactly when a header is accepted.
-/

namespace ProxyAuth.Verdict

/-- What a client can learn from a verdict. -/
inductive Kind
  | accepted
  | refused
  | violated
  deriving DecidableEq

/-- The kind of a verdict. -/
def kind : Verdict → Kind
  | .accepted _ => .accepted
  | .refused _ => .refused
  | .violated _ => .violated

theorem kind_eq_accepted_iff {verdict : Verdict} :
    verdict.kind = .accepted ↔ ∃ name, verdict = .accepted name := by
  cases verdict <;> simp [kind]

/-- The text is a header of digest authentication with a fresh nonce, so accounts are looked at. -/
structure Presents (maxAge : Duration) (now : WallTime) (text : Text) (header : Header) : Prop where
  parse_eq : Header.parse text = .ok header
  isDigest : header.isDigest = true
  ne_nil : header.parameters ≠ []
  fresh : Nonce.freshness maxAge now (header.getD "nonce".toList) = .fresh

/-- The account that a header names, if it may be used on a port. -/
def usable? (accounts : Accounts) (header : Header) (localPort : UInt16) : Option Account :=
  (accounts.get? (header.getD "username".toList)).filter (·.allowsPort localPort)

/-- Whether a header names another quality of protection or has no response. -/
def isDeficient (header : Header) : Bool :=
  header.getD "qop".toList ≠ Digest.protection || (header.get? "response".toList).isNone

/-- Whether a header carries the response that an account gives on an occasion. -/
def answers (account : Account) (header : Header) (occasion : Occasion) : Bool :=
  header.get? "response".toList = some (Digest.response account.key (fieldsOf header occasion))

variable {accounts : Accounts} {maxAge : Duration} {now : WallTime} {text : Text}
  {header : Header} {occasion : Occasion}

/-! ### Before the accounts -/

theorem ofText_of_presents (accounts : Accounts) (h : Presents maxAge now text header)
    (occasion : Occasion) :
    ofText accounts maxAge now text occasion = ofAccount accounts header occasion := by
  simp only [ofText, h.parse_eq, ofHeader, h.isDigest, Bool.not_true, Bool.false_eq_true, if_false,
    if_neg h.ne_nil, h.fresh]

/-- A text that presents no header gets the same verdict from all accounts, and is not accepted. -/
theorem ofText_of_not_presents (h : ∀ header, ¬ Presents maxAge now text header)
    (accounts accounts' : Accounts) (occasion : Occasion) :
    ofText accounts maxAge now text occasion = ofText accounts' maxAge now text occasion ∧
      (ofText accounts maxAge now text occasion).kind ≠ .accepted := by
  unfold ofText
  cases hp : Header.parse text with
  | error fault => simp [kind]
  | ok header =>
    simp only [ofHeader]
    split_ifs with hd hn
    · simp [kind]
    · simp [kind]
    · cases hf : Nonce.freshness maxAge now (header.getD "nonce".toList) with
      | fresh => exact absurd ⟨hp, by simpa using hd, hn, hf⟩ (h header)
      | stale => simp [kind]
      | invalid => simp [kind]

/-! ### At the accounts -/

/-- The accounts settle a verdict through the usable account that the header names. -/
theorem ofAccount_of_usable {account : Account}
    (h : usable? accounts header occasion.localPort = some account) :
    ofAccount accounts header occasion = ofResponse account header occasion := by
  obtain ⟨hget, hport⟩ := Option.filter_eq_some_iff.mp h
  simp only [ofAccount, hget, hport, Bool.not_true, Bool.false_eq_true, if_false]

theorem kind_ofAccount_of_not_usable (h : usable? accounts header occasion.localPort = none) :
    (ofAccount accounts header occasion).kind = .refused := by
  cases hget : accounts.get? (header.getD "username".toList) with
  | none =>
    simp only [ofAccount, hget]
    rfl
  | some account =>
    have hport : account.allowsPort occasion.localPort = false :=
      Bool.eq_false_iff.mpr (Option.filter_eq_none_iff.mp h account hget)
    simp only [ofAccount, hget, hport, Bool.not_false, if_true]
    rfl

theorem kind_ofResponse (account : Account) (header : Header) (occasion : Occasion) :
    (ofResponse account header occasion).kind =
      if isDeficient header then .violated
      else if answers account header occasion then .accepted else .refused := by
  unfold ofResponse isDeficient answers
  generalize Digest.response account.key (fieldsOf header occasion) = expected
  by_cases hq : header.getD "qop".toList = Digest.protection
  · rw [if_neg (not_not.mpr hq), decide_eq_false (not_not.mpr hq), Bool.false_or]
    cases hr : header.get? "response".toList with
    | none => rfl
    | some response =>
      by_cases he : expected = response
      · simp [he, kind]
      · simp [he, Ne.symm he, kind]
  · rw [if_pos hq, decide_eq_true hq, Bool.true_or]
    rfl

/-- The kind of a verdict at the accounts. -/
theorem kind_ofAccount (accounts : Accounts) (header : Header) (occasion : Occasion) :
    (ofAccount accounts header occasion).kind =
      match usable? accounts header occasion.localPort with
      | none => .refused
      | some account =>
          if isDeficient header then .violated
          else if answers account header occasion then .accepted else .refused := by
  cases h : usable? accounts header occasion.localPort with
  | none => exact kind_ofAccount_of_not_usable h
  | some account => rw [ofAccount_of_usable h, kind_ofResponse]

/-! ### Acceptance -/

theorem ofResponse_eq_accepted {account : Account} {name : Text}
    (h : ofResponse account header occasion = .accepted name) :
    name = header.getD "username".toList := by
  unfold ofResponse at h
  split_ifs at h with hq
  split at h
  · cases h
  · split_ifs at h with he
    cases h
    rfl

/-- Only the name that a header gives is accepted. -/
theorem name_of_accepted {name : Text}
    (h : ofText accounts maxAge now text occasion = .accepted name)
    (hp : Header.parse text = .ok header) : name = header.getD "username".toList := by
  have hk : (ofText accounts maxAge now text occasion).kind = .accepted := by rw [h]; rfl
  by_cases hpres : ∃ header, Presents maxAge now text header
  · obtain ⟨header', hpres⟩ := hpres
    obtain rfl := Except.ok.inj (hpres.parse_eq.symm.trans hp)
    rw [ofText_of_presents accounts hpres] at h hk
    rw [kind_ofAccount] at hk
    cases hu : usable? accounts header' occasion.localPort with
    | none => simp [hu] at hk
    | some account => exact ofResponse_eq_accepted (ofAccount_of_usable hu ▸ h)
  · exact absurd hk (ofText_of_not_presents (fun header hh => hpres ⟨header, hh⟩)
      accounts accounts occasion).2

/-- **Exactly when a header is accepted.** -/
theorem ofText_eq_accepted_iff (accounts : Accounts) (maxAge : Duration) (now : WallTime)
    (text : Text) (occasion : Occasion) (name : Text) :
    ofText accounts maxAge now text occasion = .accepted name ↔
      ∃ header account, Presents maxAge now text header ∧
        usable? accounts header occasion.localPort = some account ∧
        isDeficient header = false ∧ answers account header occasion = true ∧
        name = header.getD "username".toList := by
  constructor
  · intro h
    have hk : (ofText accounts maxAge now text occasion).kind = .accepted := by rw [h]; rfl
    -- Only a text that presents a header gets as far as the accounts.
    by_cases hpres : ∃ header, Presents maxAge now text header
    · obtain ⟨header, hpres⟩ := hpres
      have hname := name_of_accepted h hpres.parse_eq
      rw [ofText_of_presents accounts hpres, kind_ofAccount] at hk
      cases hu : usable? accounts header occasion.localPort with
      | none => simp [hu] at hk
      | some account =>
        simp only [hu] at hk
        split_ifs at hk with hd ha
        exact ⟨header, account, hpres, hu, by simpa using hd, ha, hname⟩
    · exact absurd hk (ofText_of_not_presents (fun header hh => hpres ⟨header, hh⟩)
        accounts accounts occasion).2
  · rintro ⟨header, account, hpres, hu, hd, ha, rfl⟩
    rw [ofText_of_presents accounts hpres, ofAccount_of_usable hu]
    have hk := kind_ofResponse account header occasion
    rw [hd, ha] at hk
    cases hv : ofResponse account header occasion with
    | accepted name => rw [ofResponse_eq_accepted hv]
    | refused reason => rw [hv] at hk; cases hk
    | violated violation => rw [hv] at hk; cases hk

end ProxyAuth.Verdict
