import Mathlib.Tactic
import ProxyAuth.Digest
import ProxyAuth.Proofs.Text

/-!
# What a digest is computed from

Three texts are hashed for one answer: that of the account (`keyInput`), that of the request
(`requestInput`), and the one that joins both hashes to the nonce, the count and the client nonce
(`responseInput`).  Fields are joined by colons without escaping, so taking such a text apart rests
on the fixed length of the hashes, and on fields that have no colon of their own.

Nothing is assumed of MD5.  Where a statement needs that two texts have different hashes, it names
the two texts (`Collide`).
-/

namespace ProxyAuth

namespace MD5

theorem length_littleEndian (n value : Nat) : (littleEndian n value).length = n := by
  induction n generalizing value with
  | zero => rfl
  | succ n ih => rw [littleEndian, List.length_cons, ih]

theorem length_digest (message : Bytes) : (digest message).length = 16 := by
  simp [digest, length_littleEndian]

/-- A digest is written as 32 digits. -/
theorem length_hex (message : Bytes) : (hex message).length = 32 := by
  have h (bytes : Bytes) : (bytes.flatMap hexByte).length = 2 * bytes.length := by
    induction bytes with
    | nil => rfl
    | cons b bytes ih =>
      rw [List.flatMap_cons, List.length_append, ih, List.length_cons]
      show 2 + _ = _
      omega
  rw [hex, h, length_digest]

/-- The characters of a written digest are hexadecimal digits. -/
theorem exists_digitChar_of_mem_hex {message : Bytes} {c : Char} (h : c ∈ hex message) :
    ∃ d < 16, c = Nat.digitChar d := by
  obtain ⟨byte, -, hc⟩ := List.mem_flatMap.mp h
  have hlt := byte.toNat_lt
  rcases List.mem_cons.mp hc with hc | hc
  · exact ⟨byte.toNat / 16, by omega, hc⟩
  · exact ⟨byte.toNat % 16, by omega, List.mem_singleton.mp hc⟩

end MD5

namespace Digest

open Text (joined joined_singleton joined_cons_cons)

/-- Two texts with the same hash. -/
def Collide (s t : Text) : Prop := s ≠ t ∧ ofText s = ofText t

theorem eq_of_not_collide {s t : Text} (h : ¬ Collide s t) (he : ofText s = ofText t) : s = t := by
  by_contra hne
  exact h ⟨hne, he⟩

theorem length_ofText (s : Text) : (ofText s).length = 32 := MD5.length_hex _

/-! ### The hashed texts -/

/-- The text whose hash is the key of an account. -/
def keyInput (user realm secret : Text) : Text := joined [user, realm, secret]

/-- The text of method and target. -/
def requestInput (method target : Text) : Text := joined [method, target]

/-- The text whose hash is the response. -/
def responseInput (key : Text) (f : Fields) : Text :=
  joined [key, f.nonce, f.count, f.clientNonce, protection, ofText (requestInput f.method f.target)]

theorem length_key (user realm secret : Text) : (key user realm secret).length = 32 :=
  length_ofText _

/-- For one user in one realm the text tells the secret. -/
theorem keyInput_inj {user realm secret secret' : Text}
    (h : keyInput user realm secret = keyInput user realm secret') : secret = secret' := by
  simpa [keyInput] using h

/-- For one target the text tells the method. -/
theorem requestInput_inj {method method' target : Text}
    (h : requestInput method target = requestInput method' target) : method = method' := by
  simpa [requestInput] using h

/-- For one method the text tells the target. -/
theorem target_eq_of_requestInput_eq {method target target' : Text}
    (h : requestInput method target = requestInput method target') : target = target' := by
  simpa [requestInput] using h

/-- Between keys of one length, and for the same nonce, count and client nonce, the text tells the
key and the hash of the request. -/
theorem responseInput_inj {key key' : Text} {f f' : Fields}
    (h : responseInput key f = responseInput key' f') (hlength : key.length = key'.length)
    (hnonce : f.nonce = f'.nonce) (hcount : f.count = f'.count)
    (hclient : f.clientNonce = f'.clientNonce) :
    key = key' ∧
      ofText (requestInput f.method f.target) = ofText (requestInput f'.method f'.target) := by
  simp only [responseInput, joined_cons_cons, joined_singleton, hnonce, hcount, hclient] at h
  obtain ⟨hkey, hrest⟩ := List.append_inj h hlength
  exact ⟨hkey, by simpa using hrest⟩

/-! ### Fields without colons -/

/-- Between users without colons in their names the text tells user and secret. -/
theorem keyInput_inj_of_not_mem {user user' realm secret secret' : Text} (h : ':' ∉ user)
    (h' : ':' ∉ user') (heq : keyInput user realm secret = keyInput user' realm secret') :
    user = user' ∧ secret = secret' := by
  simp only [keyInput, joined_cons_cons, joined_singleton] at heq
  obtain ⟨huser, hrest⟩ := Text.append_cons_inj h h' heq
  exact ⟨huser, by simpa using hrest⟩

theorem responseInput_eq (key : Text) (f : Fields) :
    responseInput key f = key ++ (':' :: (f.nonce ++ ':' :: (joined [f.count, f.clientNonce] ++
      ':' :: joined [protection, ofText (requestInput f.method f.target)]))) := by
  simp [responseInput]

/-- Between nonces without colons the text tells the key, the nonce, the joined count and client
nonce, and the hash of the request. -/
theorem responseInput_inj_of_not_mem {key key' : Text} {f f' : Fields}
    (h : responseInput key f = responseInput key' f') (hlength : key.length = key'.length)
    (hnonce : ':' ∉ f.nonce) (hnonce' : ':' ∉ f'.nonce) :
    key = key' ∧ f.nonce = f'.nonce ∧
      joined [f.count, f.clientNonce] = joined [f'.count, f'.clientNonce] ∧
      ofText (requestInput f.method f.target) = ofText (requestInput f'.method f'.target) := by
  rw [responseInput_eq, responseInput_eq] at h
  -- The key is found from the front, then the nonce, and the hash of the request from the end.
  obtain ⟨hkey, hrest⟩ := List.append_inj h hlength
  obtain ⟨hnonces, hrest⟩ := Text.append_cons_inj hnonce hnonce' ((List.cons_inj_right _).mp hrest)
  have htail : (':' :: joined [protection, ofText (requestInput f.method f.target)]).length =
      (':' :: joined [protection, ofText (requestInput f'.method f'.target)]).length := by
    simp [length_ofText]
  obtain ⟨hcounts, hrequest⟩ := List.append_inj' hrest htail
  exact ⟨hkey, hnonces, hcounts, by simpa using hrequest⟩

end Digest

end ProxyAuth
