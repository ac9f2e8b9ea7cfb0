import ProxyAuth.Accounts.File
import ProxyAuth.Allowlist
import ProxyAuth.Nonce
import ProxyAuth.Time.Printer

/-!
# Policies

A policy says who may use the proxy.  It is built once from three texts: an account entry, the name
of an account file and an allowlist, each of which may be left out.  The first fault, in this order,
ends the building, so there is no policy with a part of its entries.  Authentication is required as
soon as one of the texts is given and not empty, even where the file holds no entry.
-/

namespace ProxyAuth

open Text

/-- Who may use the proxy, and for how long an answer counts. -/
structure Policy where
  required : Bool
  accounts : Accounts
  allowlist : Allowlist
  nonceMaxAge : Duration
  /-- How long an authenticated client stays known. -/
  lifetime : Duration
  deriving DecidableEq

namespace Policy

/-- How long an authenticated client stays known unless set otherwise. -/
def defaultLifetime : Duration := .ofSeconds (2 * 3600)

/-- The texts and durations from which a policy is built, as far as they are given. -/
structure Source where
  entry? : Option Text := none
  file? : Option Text := none
  allowlist? : Option Text := none
  nonceMaxAge? : Option Duration := none
  lifetime? : Option Duration := none
  deriving DecidableEq

/-- The account entry; the empty text is none. -/
def Source.entry (s : Source) : Text := s.entry?.getD []

/-- The name of the account file; the empty text names none. -/
def Source.file (s : Source) : Text := s.file?.getD []

/-- The allowlist; the empty text is the empty list. -/
def Source.allowlist (s : Source) : Text := s.allowlist?.getD []

/-- How long a nonce stays fresh. -/
def Source.nonceMaxAge (s : Source) : Duration := s.nonceMaxAge?.getD Nonce.defaultMaxAge

/-- How long an authenticated client stays known. -/
def Source.lifetime (s : Source) : Duration := s.lifetime?.getD defaultLifetime

/-- Whether any of the three texts asks for authentication. -/
def Source.requires (s : Source) : Bool := s.entry ≠ [] || s.file ≠ [] || s.allowlist ≠ []

/-- Load the accounts of a source: the entry first, then the file. -/
def Source.loading (s : Source) (files : Files) : Accounts.Loading :=
  let l := (Accounts.Loading.start .empty).entry id s.entry
  if s.file = [] then l else l.file files s.file

/-- The policy of a source, unless one of its entries is at fault. -/
def Source.build (s : Source) (files : Files) : Except SetupFault Policy :=
  let l := s.loading files
  match l.fault with
  | some fault => .error fault
  | none =>
      (Allowlist.parse s.allowlist).map fun allowlist =>
        ⟨s.requires, l.accounts, allowlist, s.nonceMaxAge, s.lifetime⟩

/-- What is reported while a source is built. -/
def Source.events (s : Source) (files : Files) : List Event := (s.loading files).events

/-- One subnet in a description. -/
def describeSubnet (s : Subnet) : Text :=
  "NetworkRange \x7b base: ".toList ++ s.base.render ++ ", prefix_len: ".toList ++
    decimal s.length ++ " \x7d".toList

/-- A description of the policy that tells no name and no secret. -/
def describe (p : Policy) : Text :=
  "AuthConfig \x7b required: ".toList ++ (if p.required then "true" else "false").toList ++
    ", users: ".toList ++ decimal p.accounts.size ++ ", allowed_clients: [".toList ++
    List.intercalate ", ".toList (p.allowlist.map describeSubnet) ++
    "], nonces: NonceService \x7b max_age: ".toList ++ p.nonceMaxAge.render ++
    " \x7d, .. \x7d".toList

end Policy

end ProxyAuth
