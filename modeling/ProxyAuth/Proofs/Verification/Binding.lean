import Mathlib.Tactic
import ProxyAuth.Proofs.Policy
import ProxyAuth.Proofs.Digest
import ProxyAuth.Proofs.Nonce
import ProxyAuth.Proofs.Verification

/-!
# What a response is bound to

Two headers with the same response were both accepted, each by its own table of accounts and at its
own time.  Then both are for the same user with the same secret and give the same nonce, unless MD5
collides on one of three pairs of texts.  Count and client nonce are told only up to the colon that
joins them, and so are method and target; hence for the same method the targets are the same.

* `Hashed`, `Hashed.Separated`: the texts that are hashed, and that MD5 tells them apart;
* `response_eq_iff`: the responses of two accounts;
* `accepted_response_eq_iff`: the responses of two accepted headers.
-/

namespace ProxyAuth.Verdict

open Text (joined)

/-- The texts that are hashed for one response. -/
structure Hashed where
  key : Text
  request : Text
  response : Text
  deriving DecidableEq

/-- The texts that are hashed for an account. -/
def hashed (account : Account) (f : Digest.Fields) : Hashed where
  key := Digest.keyInput account.name Digest.realm account.secret
  request := Digest.requestInput f.method f.target
  response := Digest.responseInput account.key f

/-- MD5 tells the texts of two responses apart. -/
structure Hashed.Separated (a b : Hashed) : Prop where
  key : ¬ Digest.Collide a.key b.key
  request : ¬ Digest.Collide a.request b.request
  response : ¬ Digest.Collide a.response b.response

/-- Equal texts have nothing to be told apart by. -/
theorem Hashed.Separated.of_eq {a b : Hashed} (h : a = b) : a.Separated b where
  key hc := hc.1 (by rw [h])
  request hc := hc.1 (by rw [h])
  response hc := hc.1 (by rw [h])

/-- Two accounts give the same response exactly where name, secret and nonce are the same, and the
joined texts around them. -/
theorem response_eq_iff {account account' : Account} {f f' : Digest.Fields}
    (hname : ':' ∉ account.name) (hname' : ':' ∉ account'.name) (hnonce : ':' ∉ f.nonce)
    (hnonce' : ':' ∉ f'.nonce) (hsep : (hashed account f).Separated (hashed account' f')) :
    Digest.response account.key f = Digest.response account'.key f' ↔
      (account.name = account'.name ∧ account.secret = account'.secret) ∧ f.nonce = f'.nonce ∧
        joined [f.count, f.clientNonce] = joined [f'.count, f'.clientNonce] ∧
        joined [f.method, f.target] = joined [f'.method, f'.target] := by
  constructor
  · intro h
    have hlength : account.key.length = account'.key.length := by
      rw [Account.key, Account.key, Digest.length_key, Digest.length_key]
    -- From the outside in: the response first, then the key and the request in it.
    have hinput := Digest.eq_of_not_collide hsep.response h
    obtain ⟨hkey, hnonces, hcounts, hrequest⟩ :=
      Digest.responseInput_inj_of_not_mem hinput hlength hnonce hnonce'
    have huser := Digest.keyInput_inj_of_not_mem hname hname'
      (Digest.eq_of_not_collide hsep.key hkey)
    exact ⟨huser, hnonces, hcounts, Digest.eq_of_not_collide hsep.request hrequest⟩
  · rintro ⟨⟨hnames, hsecrets⟩, hnonces, hcounts, hrequest⟩
    have hkey : account.key = account'.key := by rw [Account.key, Account.key, hnames, hsecrets]
    have hinput : Digest.responseInput account.key f = Digest.responseInput account'.key f' := by
      rw [Digest.responseInput_eq, Digest.responseInput_eq, hkey, hnonces, hcounts,
        Digest.requestInput, Digest.requestInput, hrequest]
    exact congrArg Digest.ofText hinput

/-- What an accepted header shows. -/
theorem exists_of_accepted {accounts : Accounts} {maxAge : Duration} {now : WallTime} {text : Text}
    {occasion : Occasion} {name : Text} (hcolon : accounts.ColonFree)
    (h : ofText accounts maxAge now text occasion = .accepted name) :
    ∃ header account, Header.parse text = .ok header ∧ accounts.get? name = some account ∧
      account.name = name ∧ ':' ∉ account.name ∧ ':' ∉ (fieldsOf header occasion).nonce ∧
      header.get? "response".toList =
        some (Digest.response account.key (fieldsOf header occasion)) := by
  obtain ⟨header, account, hpresents, husable, -, hanswers, rfl⟩ :=
    (ofText_eq_accepted_iff ..).mp h
  have hget := (Option.filter_eq_some_iff.mp husable).1
  have hname : ':' ∉ account.name := hcolon account (Accounts.mem_of_get? hget)
  have hnonce : ':' ∉ header.getD "nonce".toList :=
    Nonce.not_mem_of_fresh hpresents.fresh (by decide) (by decide) (by decide)
  have hresponse := of_decide_eq_true hanswers
  exact ⟨header, account, hpresents.parse_eq, hget, Accounts.name_of_get? hget, hname, hnonce,
    hresponse⟩

/-- **An accepted response is bound to what it was computed for.**  Accounts that can be loaded have
no colons in their names.  Among such accounts, two accepted headers with the same response are for
the same user, secret and nonce, for the same count and client nonce with a colon between them, and
for the same method and target with a colon between them, unless MD5 collides on one of three pairs
of the texts that were hashed.  For the same method the target is then the same.  Conversely nothing
else tells two such responses from each other. -/
theorem accepted_response_eq_iff :
    (∀ (source : Policy.Source) (files : Files) (policy : Policy),
      source.build files = .ok policy → policy.accounts.ColonFree) ∧
    ∀ (accounts₁ accounts₂ : Accounts) (maxAge₁ maxAge₂ : Duration) (now₁ now₂ : WallTime)
      (text₁ text₂ : Text) (occasion₁ occasion₂ : Occasion) (name₁ name₂ : Text),
      accounts₁.ColonFree → accounts₂.ColonFree →
      ofText accounts₁ maxAge₁ now₁ text₁ occasion₁ = .accepted name₁ →
      ofText accounts₂ maxAge₂ now₂ text₂ occasion₂ = .accepted name₂ →
      ∃ header₁ account₁ header₂ account₂,
        Header.parse text₁ = .ok header₁ ∧ accounts₁.get? name₁ = some account₁ ∧
        Header.parse text₂ = .ok header₂ ∧ accounts₂.get? name₂ = some account₂ ∧
        let f₁ := fieldsOf header₁ occasion₁
        let f₂ := fieldsOf header₂ occasion₂
        (hashed account₁ f₁).Separated (hashed account₂ f₂) →
          (header₁.get? "response".toList = header₂.get? "response".toList ↔
            (name₁ = name₂ ∧ account₁.secret = account₂.secret) ∧ f₁.nonce = f₂.nonce ∧
              joined [f₁.count, f₁.clientNonce] = joined [f₂.count, f₂.clientNonce] ∧
              joined [f₁.method, f₁.target] = joined [f₂.method, f₂.target]) ∧
          (header₁.get? "response".toList = header₂.get? "response".toList →
            f₁.method = f₂.method → f₁.target = f₂.target) := by
  refine ⟨fun source files policy h => Policy.Source.colonFree_of_build h, ?_⟩
  intro accounts₁ accounts₂ maxAge₁ maxAge₂ now₁ now₂ text₁ text₂ occasion₁ occasion₂ name₁ name₂
    hcolon₁ hcolon₂ h₁ h₂
  obtain ⟨header₁, account₁, hparse₁, hget₁, rfl, hname₁, hnonce₁, hresponse₁⟩ :=
    exists_of_accepted hcolon₁ h₁
  obtain ⟨header₂, account₂, hparse₂, hget₂, rfl, hname₂, hnonce₂, hresponse₂⟩ :=
    exists_of_accepted hcolon₂ h₂
  refine ⟨header₁, account₁, header₂, account₂, hparse₁, hget₁, hparse₂, hget₂, ?_⟩
  intro f₁ f₂ hsep
  have hiff := response_eq_iff hname₁ hname₂ hnonce₁ hnonce₂ hsep
  rw [hresponse₁, hresponse₂, Option.some.injEq]
  refine ⟨hiff, fun h hmethod => ?_⟩
  obtain ⟨-, -, -, hrequest⟩ := hiff.mp h
  rw [hmethod] at hrequest
  exact Digest.target_eq_of_requestInput_eq hrequest

/-- A colon in the count or in the client nonce, and in the method or in the target: the response
is the same. -/
theorem accepted_response_eq_for_moved_colons :
    let accounts : Accounts := ⟨[⟨"alice".toList, "secret".toList, 0⟩]⟩
    let text₁ := ("Digest username=alice, nonce=6553f100, uri=\"x:/\", qop=auth, nc=\"1:2\", " ++
      "cnonce=3, response=ac6c7ad5227a69563abe4f4a3b0e57e2").toList
    let text₂ := ("Digest username=alice, nonce=6553f100, qop=auth, nc=1, " ++
      "cnonce=\"2:3\", response=ac6c7ad5227a69563abe4f4a3b0e57e2").toList
    let verdict₁ := ofText accounts (.ofSeconds 60) (.ofParts 1700000000 0) text₁
      ⟨"GET".toList, "/".toList, 80⟩
    let verdict₂ := ofText accounts (.ofSeconds 9) (.ofParts 1700000009 0) text₂
      ⟨"GET:x".toList, "/".toList, 8080⟩
    accounts.ColonFree ∧ verdict₁ = .accepted "alice".toList ∧
      verdict₂ = .accepted "alice".toList ∧
      joined ["1:2".toList, "3".toList] = joined ["1".toList, "2:3".toList] ∧
      joined ["GET".toList, "x:/".toList] = joined ["GET:x".toList, "/".toList] := by
  intro accounts text₁ text₂ verdict₁ verdict₂
  have hcolon : accounts.ColonFree := by decide
  have h₁ : verdict₁ = .accepted "alice".toList := by decide +kernel
  have h₂ : verdict₂ = .accepted "alice".toList := by decide +kernel
  refine ⟨hcolon, h₁, h₂, ?_⟩
  obtain ⟨header₁, account₁, header₂, account₂, hparse₁, hget₁, hparse₂, hget₂, himp⟩ :=
    accepted_response_eq_iff.2 accounts accounts _ _ _ _ _ _ _ _ _ _ hcolon hcolon h₁ h₂
  obtain rfl : ⟨"alice".toList, "secret".toList, 0⟩ = account₁ := Option.some.inj hget₁
  obtain rfl : ⟨"alice".toList, "secret".toList, 0⟩ = account₂ := Option.some.inj hget₂
  have hheader₁ : Header.parse text₁ = .ok ⟨"Digest".toList, [("cnonce".toList, "3".toList),
      ("nc".toList, "1:2".toList), ("nonce".toList, "6553f100".toList),
      ("qop".toList, "auth".toList), ("response".toList, "ac6c7ad5227a69563abe4f4a3b0e57e2".toList),
      ("uri".toList, "x:/".toList), ("username".toList, "alice".toList)]⟩ := by decide +kernel
  have hheader₂ : Header.parse text₂ = .ok ⟨"Digest".toList, [("cnonce".toList, "2:3".toList),
      ("nc".toList, "1".toList), ("nonce".toList, "6553f100".toList),
      ("qop".toList, "auth".toList), ("response".toList, "ac6c7ad5227a69563abe4f4a3b0e57e2".toList),
      ("username".toList, "alice".toList)]⟩ := by decide +kernel
  obtain rfl := Except.ok.inj (hheader₁.symm.trans hparse₁)
  obtain rfl := Except.ok.inj (hheader₂.symm.trans hparse₂)
  exact ((himp (.of_eq (by decide +kernel))).1.mp rfl).2.2

end ProxyAuth.Verdict
