import Mathlib.Tactic
import ProxyAuth.Proofs.Accounts
import ProxyAuth.Proofs.Client.Answer
import ProxyAuth.Proofs.Digest
import ProxyAuth.Proofs.Verification

/-!
# Clients and verdicts agree

The answer of a client to a challenge of the one realm is accepted exactly when the nonce is fresh,
the client holds the secret of a usable account of its own name, and the answer is sent with the
method for which it was computed.  That such an answer is accepted needs nothing of MD5; that no
other is accepted needs that MD5 tells three named pairs of texts apart.

* `accepted_of_answer`: the answer of an entitled client is accepted;
* `answer_accepted_exactly`: and no other is.
-/

namespace ProxyAuth

namespace Client

open Text Verdict

/-- Some account of the client's name has the client's secret and may be used on the port. -/
def IsEntitled (c : Client) (accounts : Accounts) (localPort : UInt16) : Prop :=
  ∃ account, accounts.get? c.name = some account ∧ account.secret = c.secret ∧
    account.allowsPort localPort = true

/-- The fields that a client hashes with its current count. -/
def fields (c : Client) (challenge : Challenge) (method target clientNonce : Text) :
    Digest.Fields :=
  ⟨challenge.nonce, c.countText, clientNonce, method, target⟩

/-- MD5 tells apart what the client hashes and what is hashed for an account and a method: the texts
of the keys, of the requests and of the responses. -/
structure Separated (c : Client) (challenge : Challenge) (method target clientNonce : Text)
    (account : Account) (method' : Text) : Prop where
  key : ¬ Digest.Collide (Digest.keyInput c.name Digest.realm c.secret)
    (Digest.keyInput c.name Digest.realm account.secret)
  request : ¬ Digest.Collide (Digest.requestInput method target)
    (Digest.requestInput method' target)
  response : ¬ Digest.Collide
    (Digest.responseInput (Digest.key c.name Digest.realm c.secret)
      (c.fields challenge method target clientNonce))
    (Digest.responseInput (Digest.key c.name Digest.realm account.secret)
      (c.fields challenge method' target clientNonce))

/-- What the checks of a verdict see of an answer. -/
structure Shows (header : Header) (c : Client) (challenge : Challenge)
    (method target clientNonce : Text) : Prop where
  name : header.getD "username".toList = c.name
  nonce : header.getD "nonce".toList = challenge.nonce
  notDeficient : isDeficient header = false
  response : header.get? "response".toList = some (Digest.response
    (Digest.key c.name challenge.realm c.secret) (c.fields challenge method target clientNonce))
  fields : ∀ occasion : Occasion,
    fieldsOf header occasion = c.fields challenge occasion.method target clientNonce

section

variable {c : Client} {challenge : Challenge} {method target clientNonce text : Text}

/-- The checks see in an answer what the client put there. -/
theorem shows_of_lookup {header : Header} (h : ∀ name, header.get? name =
      (c.parameters challenge method target clientNonce).lookup (lower name)) :
    Shows header c challenge method target clientNonce where
  name := by rw [Header.getD, h]; rfl
  nonce := by rw [Header.getD, h]; rfl
  notDeficient := by
    have hqop : header.getD "qop".toList = Digest.protection := by rw [Header.getD, h]; rfl
    rw [isDeficient, hqop, h]
    rfl
  response := by rw [h]; rfl
  fields occasion := by
    simp only [fieldsOf, Header.getD, h]
    rfl

/-- An answer passes the last check of an account of the client's name exactly if both sides get the
same response. -/
theorem Shows.answers_iff {header : Header}
    (hs : Shows header c challenge method target clientNonce)
    (hrealm : challenge.realm = Digest.realm) {account : Account} (hname : account.name = c.name)
    (occasion : Occasion) :
    answers account header occasion = true ↔
      Digest.response (Digest.key c.name Digest.realm c.secret)
          (c.fields challenge method target clientNonce) =
        Digest.response (Digest.key c.name Digest.realm account.secret)
          (c.fields challenge occasion.method target clientNonce) := by
  rw [answers, hs.response, hs.fields, hrealm, Account.key, hname, decide_eq_true_eq,
    Option.some.injEq]

/-- Equal responses come from equal secrets and methods, where MD5 tells the texts apart. -/
theorem Separated.eq_of_response_eq {account : Account} {method' : Text}
    (hsep : Separated c challenge method target clientNonce account method')
    (h : Digest.response (Digest.key c.name Digest.realm c.secret)
          (c.fields challenge method target clientNonce) =
        Digest.response (Digest.key c.name Digest.realm account.secret)
          (c.fields challenge method' target clientNonce)) :
    account.secret = c.secret ∧ method' = method := by
  -- From the outside in: the response first, then the key and the request in it.
  have hinput := Digest.eq_of_not_collide hsep.response h
  have hlength : (Digest.key c.name Digest.realm c.secret).length =
      (Digest.key c.name Digest.realm account.secret).length := by
    rw [Digest.length_key, Digest.length_key]
  obtain ⟨hkey, hrequest⟩ := Digest.responseInput_inj hinput hlength rfl rfl rfl
  have hsecret := Digest.keyInput_inj (Digest.eq_of_not_collide hsep.key hkey)
  have hmethod := Digest.requestInput_inj (Digest.eq_of_not_collide hsep.request hrequest)
  exact ⟨hsecret.symm, hmethod.symm⟩

/-- An answer with a fresh nonce is accepted for an entitled client. -/
theorem accepted_of_answer {accounts : Accounts} {maxAge : Duration} {now : WallTime}
    {occasion : Occasion} (hrealm : challenge.realm = Digest.realm)
    (h : (c.answer challenge method target clientNonce).1 = .ok text)
    (hfresh : Nonce.freshness maxAge now challenge.nonce = .fresh)
    (hentitled : c.IsEntitled accounts occasion.localPort) (hmethod : occasion.method = method) :
    ofText accounts maxAge now text occasion = .accepted c.name := by
  obtain ⟨header, hparse, hdigest, hne, hget⟩ := parse_of_answer h
  have hs : Shows header c.next challenge method target clientNonce := shows_of_lookup hget
  obtain ⟨account, haccount, hsecret, hport⟩ := hentitled
  have hpres : Presents maxAge now text header := ⟨hparse, hdigest, hne, by rwa [hs.nonce]⟩
  refine (ofText_eq_accepted_iff ..).mpr
    ⟨header, account, hpres, ?_, hs.notDeficient, ?_, hs.name.symm⟩
  · rw [usable?, hs.name]
    exact Option.filter_eq_some_iff.mpr ⟨haccount, hport⟩
  · rw [hs.answers_iff hrealm (Accounts.name_of_get? haccount), hsecret, hmethod]
    rfl

/-- **Clients and verdicts agree.**  An answer with a fresh nonce is accepted for an entitled client
and the method of the answer.  Conversely an accepted answer is accepted for the client's name, with
a fresh nonce and a usable account of that name, which has the client's secret, and for the method
of the answer, unless MD5 collides on one of three pairs of texts. -/
theorem answer_accepted_exactly (accounts : Accounts) (maxAge : Duration) (now : WallTime)
    (hrealm : challenge.realm = Digest.realm)
    (h : (c.answer challenge method target clientNonce).1 = .ok text) (occasion : Occasion) :
    (Nonce.freshness maxAge now challenge.nonce = .fresh →
      c.IsEntitled accounts occasion.localPort → occasion.method = method →
      ofText accounts maxAge now text occasion = .accepted c.name) ∧
    ∀ name, ofText accounts maxAge now text occasion = .accepted name →
      name = c.name ∧ Nonce.freshness maxAge now challenge.nonce = .fresh ∧
      ∃ account, accounts.get? c.name = some account ∧
        account.allowsPort occasion.localPort = true ∧
        (Separated c.next challenge method target clientNonce account occasion.method →
          account.secret = c.secret ∧ occasion.method = method) := by
  obtain ⟨header, hparse, -, -, hget⟩ := parse_of_answer h
  have hs : Shows header c.next challenge method target clientNonce := shows_of_lookup hget
  constructor
  · exact accepted_of_answer hrealm h
  · intro name haccepted
    obtain ⟨header', account, hpres, husable, -, hanswers, rfl⟩ :=
      (ofText_eq_accepted_iff ..).mp haccepted
    obtain rfl := Except.ok.inj (hparse.symm.trans hpres.parse_eq)
    rw [usable?, hs.name] at husable
    obtain ⟨haccount, hport⟩ := Option.filter_eq_some_iff.mp husable
    refine ⟨hs.name, hs.nonce ▸ hpres.fresh, account, haccount, hport, fun hsep => ?_⟩
    exact hsep.eq_of_response_eq
      ((hs.answers_iff hrealm (Accounts.name_of_get? haccount) occasion).mp hanswers)

end

/-- Half a minute after the challenge, a name with a quote and a letter outside ASCII, a secret with
a colon, and a target with a comma. -/
theorem answer_accepted_for_quoted_name :
    let c : Client := ⟨"böb\"".toList, "p:w".toList, 41⟩
    let challenge : Challenge := ⟨Digest.realm, "6553f100".toList, none⟩
    let text := ("Digest cnonce=\"c\", nc=0000002a, nonce=\"6553f100\", qop=auth, " ++
      "realm=\"warden proxy\", response=\"eafce0f74a60e621cdbe6247463a82fd\", uri=\"/a, b\", " ++
      "username=\"böb\\\"\"").toList
    let accounts : Accounts :=
      ⟨[⟨"eve".toList, "x".toList, 0⟩, ⟨"böb\"".toList, "p:w".toList, 8080⟩]⟩
    challenge.realm = Digest.realm ∧
      (c.answer challenge "GET".toList "/a, b".toList "c".toList).1 = .ok text ∧
      ofText accounts (.ofSeconds 60) (.ofParts 1700000030 0) text
        ⟨"GET".toList, "/".toList, 8080⟩ = .accepted c.name := by
  intro c challenge text accounts
  have hanswer : (c.answer challenge "GET".toList "/a, b".toList "c".toList).1 = .ok text := by
    decide +kernel
  refine ⟨rfl, hanswer, ?_⟩
  exact (answer_accepted_exactly accounts (.ofSeconds 60) (.ofParts 1700000030 0) rfl hanswer
    ⟨"GET".toList, "/".toList, 8080⟩).1 (by decide)
    ⟨⟨"böb\"".toList, "p:w".toList, 8080⟩, by decide, rfl, by decide⟩ rfl

end Client

end ProxyAuth
