import ProxyAuth.MD5
import ProxyAuth.Utf8

/-!
# Digest values

The hashes of digest authentication with MD5 and quality of protection `auth` (RFC 2617, section
3.2.2.1).  Fields are joined by colons, so a user name that contains a colon can collide with
another split of the same text; account entries exclude such names.
-/

namespace ProxyAuth.Digest

open Text (joined)

/-- The realm in which all accounts live. -/
def realm : Text := "warden proxy".toList

/-- The only quality of protection offered. -/
def protection : Text := "auth".toList

/-- The hash of a text, through its UTF-8 form. -/
def ofText (s : Text) : Text := MD5.hex (Utf8.encode s)

/-- The key of an account in a realm. -/
def key (user realm secret : Text) : Text := ofText (joined [user, realm, secret])

/-- The fields of one digest answer. -/
structure Fields where
  nonce : Text
  count : Text
  clientNonce : Text
  method : Text
  target : Text
  deriving DecidableEq

/-- The request digest: what a client that holds `key` sends for these fields. -/
def response (key : Text) (f : Fields) : Text :=
  ofText (joined [key, f.nonce, f.count, f.clientNonce, protection,
    ofText (joined [f.method, f.target])])

end ProxyAuth.Digest
