import Mathlib.Tactic
import ProxyAuth.Account
import ProxyAuth.Proofs.Text.Numeral

/-!
# The grammar of account entries

An entry is a name and a secret with a colon between them, perhaps with a port behind a second
colon.  Neither name nor secret is empty or has a colon, and everything else in them counts as it
stands.  An entry of this form is read as the account that it says, and every other one is refused:
for the number of its fields, else for an empty field, else for its port.

* `Spells`: how an account is written;
* `IsFaultOf`: what is wrong with an entry that is refused;
* `spells_iff_fields`: the form of an entry, seen from its fields;
* `parse_accepts_exactly_spelled`: what becomes of an entry.
-/

namespace ProxyAuth.Account

open Text

variable {entry name secret numeral : Text} {account : Account} {port : UInt16} {n : Nat}
  {fault : SetupFault}

/-! ### How accounts are written -/

/-- A text that can be the name or the secret of an entry. -/
structure IsField (s : Text) : Prop where
  ne_nil : s ≠ []
  not_mem_colon : ':' ∉ s

/-- What stands behind the secret, and the port that it says. -/
inductive SpellsPort : Text → UInt16 → Prop
  | none : SpellsPort [] 0
  /-- A colon without a port admits every port too. -/
  | blank : SpellsPort [':'] 0
  | given {numeral : Text} {n : Nat} (hnumeral : IsUnsigned 10 numeral n) (hpos : 0 < n)
      (hle : n ≤ 65535) : SpellsPort (':' :: numeral) (.ofNat n)

/-- How an account is written. -/
inductive Spells : Text → Account → Prop
  | intro {name secret tail : Text} {port : UInt16} (hname : IsField name)
      (hsecret : IsField secret) (hport : SpellsPort tail port) :
      Spells (name ++ ':' :: (secret ++ tail)) ⟨name, secret, port⟩

/-- What stands between the colons of an entry. -/
def fields (entry : Text) : List Text := entry.splitOn ':'

/-- An entry has two or three fields. -/
def HasForm (entry : Text) : Prop := 2 ≤ (fields entry).length ∧ (fields entry).length ≤ 3

/-- The name or the secret of an entry is empty. -/
def LacksField (entry : Text) : Prop := [] ∈ (fields entry).take 2

/-- What is wrong with an entry that says no account. -/
inductive IsFaultOf (entry : Text) : SetupFault → Prop
  | form (h : ¬ HasForm entry) : IsFaultOf entry (.malformedAccount entry)
  | field (h : HasForm entry) (hlacks : LacksField entry) : IsFaultOf entry (.emptyField entry)
  /-- In every other case it is the port. -/
  | port (h : HasForm entry) (hlacks : ¬ LacksField entry) : IsFaultOf entry (.badPort entry)

/-- An entry has one fault only. -/
theorem IsFaultOf.unique {fault' : SetupFault} (h : IsFaultOf entry fault)
    (h' : IsFaultOf entry fault') : fault = fault' := by
  cases h <;> cases h' <;> first | rfl | contradiction

/-! ### Ports -/

theorem port?_eq_some_iff : port? numeral = some port ↔
    numeral = [] ∧ port = 0 ∨
      ∃ n, IsUnsigned 10 numeral n ∧ 0 < n ∧ n ≤ 65535 ∧ port = .ofNat n := by
  by_cases hnumeral : numeral = []
  · subst hnumeral
    have hnone (n : Nat) : ¬ IsUnsigned 10 [] n := fun h => by
      cases h with
      | bare h => exact h.ne_nil rfl
    simp [port?, hnone, eq_comm]
  · rw [port?, if_neg hnumeral, Option.map_eq_some_iff]
    simp only [Option.filter_eq_some_iff, boundedValue?_eq_some_iff, decide_eq_true_eq]
    constructor
    · rintro ⟨n, ⟨⟨hn, hle⟩, hpos⟩, rfl⟩
      exact .inr ⟨n, hn, hpos, hle, rfl⟩
    · rintro (⟨h, -⟩ | ⟨n, hn, hpos, hle, rfl⟩)
      · exact absurd h hnumeral
      · exact ⟨n, ⟨⟨hn, hle⟩, hpos⟩, rfl⟩

/-- Behind a colon stands nothing or a number. -/
theorem spellsPort_cons_iff : SpellsPort (':' :: numeral) port ↔ port? numeral = some port := by
  rw [port?_eq_some_iff]
  constructor
  · intro h
    cases h with
    | blank => exact .inl ⟨rfl, rfl⟩
    | given hn hpos hle => exact .inr ⟨_, hn, hpos, hle, rfl⟩
  · rintro (⟨rfl, rfl⟩ | ⟨n, hn, hpos, hle, rfl⟩)
    · exact .blank
    · exact .given hn hpos hle

theorem spellsPort_decimal (port : UInt16) :
    SpellsPort (if port = 0 then [] else ':' :: decimal port.toNat) port := by
  split_ifs with hzero
  · subst hzero
    exact .none
  · have hnumeral : IsUnsigned 10 (decimal port.toNat) port.toNat :=
      .bare ((value?_eq_some_iff (by decide)).mp (value?_decimal _))
    have hpos : 0 < port.toNat := by
      refine Nat.pos_of_ne_zero fun h => hzero ?_
      exact UInt16.toNat_inj.mp h
    have hle : port.toNat ≤ 65535 := by
      have := port.toNat_lt
      omega
    have hgiven := SpellsPort.given hnumeral hpos hle
    rwa [UInt16.ofNat_toNat] at hgiven

/-! ### Fields -/

theorem fields_nil : fields [] = [[]] := List.splitOn_nil ':'

theorem fields_of_not_mem (h : ':' ∉ name) : fields name = [name] := List.splitOn_eq_singleton h

theorem fields_append_cons (hname : ':' ∉ name) (rest : Text) :
    fields (name ++ ':' :: rest) = name :: fields rest :=
  List.splitOn_append_cons_self_of_not_mem hname rest

/-- The fields make up the entry. -/
theorem eq_of_fields {rest : List Text} (h : fields entry = name :: secret :: rest)
    (hrest : rest.length ≤ 1) : entry = name ++ ':' :: (secret ++ rest.flatMap (':' :: ·)) := by
  have hentry : [':'].intercalate (fields entry) = entry := List.intercalate_splitOn ':'
  rw [h] at hentry
  match rest, hrest with
  | [], _ => simpa using hentry.symm
  | [numeral], _ => simpa using hentry.symm

theorem isField_of_mem_fields {s : Text} (h : s ∈ fields entry) (hne : s ≠ []) : IsField s :=
  ⟨hne, not_mem_of_mem_splitOn h⟩

theorem hasForm_iff : HasForm entry ↔
    ∃ name secret rest, fields entry = name :: secret :: rest ∧ rest.length ≤ 1 := by
  unfold HasForm
  constructor
  · intro h
    match hfields : fields entry with
    | [] | [_] => simp [hfields] at h
    | name :: secret :: rest =>
      rw [hfields, List.length_cons, List.length_cons] at h
      exact ⟨name, secret, rest, rfl, by omega⟩
  · rintro ⟨name, secret, rest, hfields, hrest⟩
    rw [hfields, List.length_cons, List.length_cons]
    omega

/-- A port behind the secret, seen from the fields. -/
theorem spellsPort_flatMap {rest : List Text} (hrest : rest.length ≤ 1)
    (h : port? (rest.headD []) = some port) : SpellsPort (rest.flatMap (':' :: ·)) port := by
  match rest, hrest with
  | [], _ =>
    obtain rfl : 0 = port := Option.some.inj h
    exact .none
  | [numeral], _ =>
    rw [List.flatMap_singleton]
    exact spellsPort_cons_iff.mpr h

/-- The form of an entry, seen from its fields. -/
theorem spells_iff_fields : Spells entry account ↔ account.name ≠ [] ∧ account.secret ≠ [] ∧
    ∃ rest, fields entry = account.name :: account.secret :: rest ∧ rest.length ≤ 1 ∧
      port? (rest.headD []) = some account.port := by
  constructor
  · intro h
    cases h with
    | @intro name secret tail port hname hsecret hport =>
      have hsecret_none := hsecret.not_mem_colon
      refine ⟨hname.ne_nil, hsecret.ne_nil, ?_⟩
      rw [fields_append_cons hname.not_mem_colon]
      cases hport with
      | none =>
        rw [List.append_nil, fields_of_not_mem hsecret_none]
        exact ⟨[], rfl, by decide, rfl⟩
      | blank =>
        rw [fields_append_cons hsecret_none, fields_nil]
        exact ⟨[[]], rfl, by decide, rfl⟩
      | @given numeral n hnumeral hpos hle =>
        have hcolon : ':' ∉ numeral := hnumeral.not_mem (by decide) (by decide) (by decide)
        rw [fields_append_cons hsecret_none, fields_of_not_mem hcolon]
        exact ⟨[numeral], rfl, le_rfl, spellsPort_cons_iff.mp (.given hnumeral hpos hle)⟩
  · obtain ⟨name, secret, port⟩ := account
    rintro ⟨hname, hsecret, rest, hfields, hrest, hport⟩
    have hn : name ∈ fields entry := by simp [hfields]
    have hs : secret ∈ fields entry := by simp [hfields]
    rw [eq_of_fields hfields hrest]
    exact .intro (isField_of_mem_fields hn hname) (isField_of_mem_fields hs hsecret)
      (spellsPort_flatMap hrest hport)

/-! ### What becomes of an entry -/

theorem parse_of_fields {rest : List Text} (h : fields entry = name :: secret :: rest)
    (hrest : rest.length ≤ 1) : parse entry =
      if name = [] ∨ secret = [] then .error (.emptyField entry)
      else (port? (rest.headD [])).elim (.error (.badPort entry))
        fun port => .ok (some ⟨name, secret, port⟩) := by
  have hentry : entry ≠ [] := by
    rintro rfl
    cases fields_nil.symm.trans h
  rw [fields] at h
  rw [parse, if_neg hentry]
  match rest, hrest with
  | [], _ =>
    rw [h]
    rfl
  | [numeral], _ =>
    rw [h]
    dsimp only [List.headD_cons]
    cases port? numeral <;> rfl

theorem parse_of_not_hasForm (hentry : entry ≠ []) (h : ¬ HasForm entry) :
    parse entry = .error (.malformedAccount entry) := by
  rw [parse, if_neg hentry]
  dsimp only
  split
  · rename_i name secret hfields
    exact absurd (hasForm_iff.mpr ⟨name, secret, [], hfields, by decide⟩) h
  · rename_i name secret numeral hfields
    exact absurd (hasForm_iff.mpr ⟨name, secret, [numeral], hfields, le_rfl⟩) h
  · rfl

theorem lacksField_iff {rest : List Text} (h : fields entry = name :: secret :: rest) :
    LacksField entry ↔ name = [] ∨ secret = [] := by
  simp [LacksField, h, eq_comm]

/-- An entry says the account that is read, or is reported with its fault. -/
theorem settles (hentry : entry ≠ []) :
    (∃ account, parse entry = .ok (some account) ∧ Spells entry account) ∨
      ∃ fault, parse entry = .error fault ∧ IsFaultOf entry fault := by
  by_cases hform : HasForm entry
  · obtain ⟨name, secret, rest, hfields, hrest⟩ := hasForm_iff.mp hform
    rw [parse_of_fields hfields hrest]
    by_cases hlacks : name = [] ∨ secret = []
    · rw [if_pos hlacks]
      exact .inr ⟨_, rfl, .field hform ((lacksField_iff hfields).mpr hlacks)⟩
    · rw [if_neg hlacks]
      cases hport : port? (rest.headD []) with
      | none => exact .inr ⟨_, rfl, .port hform ((lacksField_iff hfields).not.mpr hlacks)⟩
      | some port =>
        obtain ⟨hname, hsecret⟩ := not_or.mp hlacks
        exact .inl ⟨_, rfl, spells_iff_fields.mpr ⟨hname, hsecret, rest, hfields, hrest, hport⟩⟩
  · exact .inr ⟨_, parse_of_not_hasForm hentry hform, .form hform⟩

theorem Spells.parse_eq (h : Spells entry account) : parse entry = .ok (some account) := by
  obtain ⟨hname, hsecret, rest, hfields, hrest, hport⟩ := spells_iff_fields.mp h
  rw [parse_of_fields hfields hrest, if_neg (not_or.mpr ⟨hname, hsecret⟩), hport]
  rfl

theorem parse_eq_ok_none_iff : parse entry = .ok none ↔ entry = [] := by
  constructor
  · intro h
    by_contra hentry
    rcases settles hentry with ⟨account, hok, -⟩ | ⟨fault, herror, -⟩
    · cases hok.symm.trans h
    · cases herror.symm.trans h
  · rintro rfl
    rfl

theorem parse_eq_ok_some_iff : parse entry = .ok (some account) ↔ Spells entry account := by
  constructor
  · intro h
    have hentry : entry ≠ [] := fun hnil => by
      cases (parse_eq_ok_none_iff.mpr hnil).symm.trans h
    rcases settles hentry with ⟨account', hok, hspells⟩ | ⟨fault, herror, -⟩
    · cases hok.symm.trans h
      exact hspells
    · cases herror.symm.trans h
  · exact Spells.parse_eq

theorem parse_eq_error_iff : parse entry = .error fault ↔
    entry ≠ [] ∧ (∀ account, ¬ Spells entry account) ∧ IsFaultOf entry fault := by
  constructor
  · intro h
    have hentry : entry ≠ [] := fun hnil => by
      cases (parse_eq_ok_none_iff.mpr hnil).symm.trans h
    rcases settles hentry with ⟨account, hok, -⟩ | ⟨fault', herror, hfault⟩
    · cases hok.symm.trans h
    · obtain rfl := Except.error.inj (herror.symm.trans h)
      refine ⟨hentry, fun account hspells => ?_, hfault⟩
      cases hspells.parse_eq.symm.trans h
  · rintro ⟨hentry, hno, hfault⟩
    rcases settles hentry with ⟨account, -, hspells⟩ | ⟨fault', herror, hfault'⟩
    · exact absurd hspells (hno account)
    · rw [herror, hfault.unique hfault']

/-! ### Accounts that are written -/

/-- An account is spelled by its text exactly if its name and its secret can be fields. -/
theorem spells_render_iff :
    Spells account.render account ↔ IsField account.name ∧ IsField account.secret := by
  constructor
  · generalize account.render = entry
    intro h
    cases h with
    | intro hname hsecret hport => exact ⟨hname, hsecret⟩
  · rintro ⟨hname, hsecret⟩
    have hspells := Spells.intro hname hsecret (spellsPort_decimal account.port)
    rwa [← List.cons_append, ← List.append_assoc] at hspells

/-- **An entry is accepted exactly if it spells an account.**  Then this account is read, with name
and secret as they stand; only the empty entry has none.  Any other entry is reported as a whole: as
malformed if it has fewer than two or more than three fields, else for an empty name or secret, else
for its port.  The text of an account is read back exactly if its name and its secret can be
fields. -/
theorem parse_accepts_exactly_spelled (entry : Text) :
    (parse entry = .ok none ↔ entry = []) ∧
    (∀ account, parse entry = .ok (some account) ↔ Spells entry account) ∧
    (∀ fault, parse entry = .error fault ↔
      entry ≠ [] ∧ (∀ account, ¬ Spells entry account) ∧ IsFaultOf entry fault) ∧
    ∀ account : Account, parse account.render = .ok (some account) ↔
      IsField account.name ∧ IsField account.secret :=
  ⟨parse_eq_ok_none_iff, fun _ => parse_eq_ok_some_iff, fun _ => parse_eq_error_iff,
    fun _ => parse_eq_ok_some_iff.trans spells_render_iff⟩

/-- The secret keeps its blanks, and the port may have a sign and zeros in front. -/
example : parse "a: b :+0080".toList = .ok (some ⟨['a'], " b ".toList, 80⟩) := by decide

/-- An empty secret is reported before a port that is too large. -/
example : parse "a::65536".toList = .error (.emptyField "a::65536".toList) := by decide

end ProxyAuth.Account
