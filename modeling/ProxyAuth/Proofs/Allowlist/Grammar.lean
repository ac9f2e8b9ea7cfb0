import Mathlib.Tactic
import ProxyAuth.Proofs.Allowlist

/-!
# The grammar of allowlists

An entry is an address, or an address, one slash and a number that does not exceed the width of the
canonical address.  A list is read exactly if all its entries are of this form, and then it has one
subnet for each of them.  Of the entries that are not, the first one is reported.

* `SpellsEntry`, `Says`: how an entry is written, and which subnet it says;
* `IsFaultOf`: what is wrong with an entry that is refused;
* `settles`: there is no third kind of entry;
* `parseTrimmed_eq_ok_iff`, `parseTrimmed_eq_error_iff`: one entry;
* `parse_reads_all_or_first_fault`: a list of entries.
-/

namespace ProxyAuth

open Text

namespace Allowlist

variable {s entry : Text} {a : Address} {subnet : Subnet} {fault : SetupFault}

/-! ### Entries -/

/-- How an entry is written: the address in it and the number of leading bits to be shared. -/
inductive SpellsEntry : Text → Address → Nat → Prop
  /-- Without a number all bits are to be shared. -/
  | bare {s : Text} {a : Address} (ha : Address.Spells s a) : SpellsEntry s a a.canonical.width
  | masked {s bits : Text} {a : Address} {n : Nat} (ha : Address.Spells s a)
      (hbits : IsUnsigned 10 bits n) (hn : n ≤ a.canonical.width) :
      SpellsEntry (s ++ '/' :: bits) a n

/-- The subnet of an entry shares as many bits as the entry says and contains its address. -/
def Says (entry : Text) (subnet : Subnet) : Prop :=
  ∃ a, SpellsEntry entry a subnet.length ∧ subnet.contains a = true

/-- What stands in front of the first slash. -/
def addressPart (entry : Text) : Text := entry.takeWhile (· ≠ '/')

/-- The entry is empty, has a second slash, or does not start with an address. -/
def LacksAddress (entry : Text) : Prop :=
  entry = [] ∨ 2 ≤ entry.count '/' ∨ ∀ a, ¬ Address.Spells (addressPart entry) a

/-- What is wrong with an entry that says no subnet. -/
inductive IsFaultOf (entry : Text) : SetupFault → Prop
  | address (h : LacksAddress entry) : IsFaultOf entry (.badAddress entry)
  /-- In every other case it is the number. -/
  | length {a : Address} (h : ¬ LacksAddress entry) (ha : Address.Spells (addressPart entry) a) :
      IsFaultOf entry (.badLength entry a.canonical.width)

theorem SpellsEntry.le_width {n : Nat} (h : SpellsEntry entry a n) : n ≤ a.canonical.width := by
  cases h with
  | bare ha => exact le_rfl
  | masked ha hbits hn => exact hn

theorem says_iff : Says entry subnet ↔ ∃ a n, SpellsEntry entry a n ∧
    Subnet.around? a n = some subnet := by
  simp only [Subnet.around?_eq_some_iff_contains]
  constructor
  · rintro ⟨a, h, hcontains⟩
    exact ⟨a, subnet.length, h, h.le_width, rfl, hcontains⟩
  · rintro ⟨a, n, h, -, rfl, hcontains⟩
    exact ⟨a, h, hcontains⟩

/-- An entry has one fault only. -/
theorem IsFaultOf.unique {fault' : SetupFault} (h : IsFaultOf entry fault)
    (h' : IsFaultOf entry fault') : fault = fault' := by
  cases h with
  | address h =>
    cases h' with
    | address _ => rfl
    | length h' _ => exact absurd h h'
  | length h ha =>
    cases h' with
    | address h' => exact absurd h' h
    | length _ ha' => rw [ha.unique ha']

theorem addressPart_eq_self (hslash : '/' ∉ entry) : addressPart entry = entry :=
  List.takeWhile_eq_self_iff.mpr fun c hc => by
    simpa using fun (he : c = '/') => hslash (he ▸ hc)

theorem addressPart_append_cons (hslash : '/' ∉ s) (bits : Text) :
    addressPart (s ++ '/' :: bits) = s := by
  rw [addressPart, List.takeWhile_append_of_pos, List.takeWhile_cons_of_neg (by simp),
    List.append_nil]
  exact fun c hc => by simpa using fun (he : c = '/') => hslash (he ▸ hc)

theorem lacksAddress_of_parse? (hpart : addressPart entry = s) (h : Address.parse? s = none) :
    LacksAddress entry := by
  refine .inr (.inr fun a hspells => ?_)
  rw [hpart, ← Address.parse?_eq_some_iff, h] at hspells
  cases hspells

/-- The entry says the subnet that is read, or is reported with its fault. -/
def Settles (entry : Text) : Prop :=
  (∃ subnet, parseTrimmed entry = .ok subnet ∧ Says entry subnet) ∨
    ∃ fault, parseTrimmed entry = .error fault ∧ IsFaultOf entry fault

theorem settles_of_slash_not_mem (hslash : '/' ∉ entry) : Settles entry := by
  cases ha : Address.parse? entry with
  | none =>
    have hlacks := lacksAddress_of_parse? (addressPart_eq_self hslash) ha
    exact .inr ⟨_, parseTrimmed_unread hslash ha, .address hlacks⟩
  | some a =>
    have hspells := Address.parse?_eq_some_iff.mp ha
    exact .inl ⟨_, parseTrimmed_bare ha,
      says_iff.mpr ⟨a, _, .bare hspells, Subnet.around?_width a⟩⟩

/-- With an address in front of its only slash an entry lacks none. -/
theorem not_lacksAddress (ha : Address.Spells s a) {bits : Text} (hbits : '/' ∉ bits) :
    ¬ LacksAddress (s ++ '/' :: bits) := by
  have hs : '/' ∉ s := Address.slash_not_mem_of_parse? (Address.parse?_eq_some_iff.mpr ha)
  rintro (hnil | hcount | hnone)
  · simp at hnil
  · rw [List.count_append, List.count_cons_self, List.count_eq_zero.mpr hs,
      List.count_eq_zero.mpr hbits] at hcount
    omega
  · rw [addressPart_append_cons hs] at hnone
    exact hnone a ha

theorem settles_masked (ha : Address.Spells s a) {bits : Text} (hbits : '/' ∉ bits) :
    Settles (s ++ '/' :: bits) := by
  have hparse := Address.parse?_eq_some_iff.mpr ha
  rw [Settles, parseTrimmed_masked hparse hbits]
  cases hsubnet : (boundedValue? 255 bits).bind (Subnet.around? a) with
  | some subnet =>
    obtain ⟨n, hn, hsubnet⟩ := Option.bind_eq_some_iff.mp hsubnet
    have hwidth := (Subnet.around?_eq_some_iff_contains.mp hsubnet).1
    have hentry := SpellsEntry.masked ha (boundedValue?_eq_some_iff.mp hn).1 hwidth
    exact .inl ⟨subnet, rfl, says_iff.mpr ⟨a, n, hentry, hsubnet⟩⟩
  | none =>
    have hpart := addressPart_append_cons (Address.slash_not_mem_of_parse? hparse) bits
    exact .inr ⟨_, rfl, .length (not_lacksAddress ha hbits) (hpart.symm ▸ ha)⟩

theorem settles (entry : Text) : Settles entry := by
  by_cases hslash : '/' ∈ entry
  · obtain ⟨s, bits, rfl, hs⟩ := List.eq_append_cons_of_mem hslash
    by_cases hbits : '/' ∈ bits
    · refine .inr ⟨_, parseTrimmed_extra hs hbits, .address (.inr (.inl ?_))⟩
      have := List.count_pos_iff.mpr hbits
      rw [List.count_append, List.count_cons_self]
      omega
    cases ha : Address.parse? s with
    | none =>
      have hlacks := lacksAddress_of_parse? (addressPart_append_cons hs bits) ha
      exact .inr ⟨_, parseTrimmed_no_address hs ha bits, .address hlacks⟩
    | some a => exact settles_masked (Address.parse?_eq_some_iff.mp ha) hbits
  · exact settles_of_slash_not_mem hslash

theorem Says.parseTrimmed_eq (h : Says entry subnet) : parseTrimmed entry = .ok subnet := by
  obtain ⟨a, n, hentry, hsubnet⟩ := says_iff.mp h
  cases hentry with
  | bare ha =>
    rw [Subnet.around?_width] at hsubnet
    rw [parseTrimmed_bare (Address.parse?_eq_some_iff.mpr ha), Option.some.inj hsubnet]
  | @masked s bits a n ha hbits hn =>
    have hvalue : boundedValue? 255 bits = some n := by
      have hwidth := Address.width_le a.canonical
      exact boundedValue?_eq_some_iff.mpr ⟨hbits, by omega⟩
    have hslash : '/' ∉ bits := hbits.not_mem (by decide) (by decide) (by decide)
    rw [parseTrimmed_masked (Address.parse?_eq_some_iff.mpr ha) hslash, hvalue, Option.bind_some,
      hsubnet, Option.elim_some]

theorem parseTrimmed_eq_ok_iff : parseTrimmed entry = .ok subnet ↔ Says entry subnet := by
  constructor
  · intro h
    rcases settles entry with ⟨subnet', hok, hentry⟩ | ⟨fault, herror, -⟩
    · obtain rfl := Except.ok.inj (hok.symm.trans h)
      exact hentry
    · cases herror.symm.trans h
  · exact Says.parseTrimmed_eq

theorem parseTrimmed_eq_error_iff :
    parseTrimmed entry = .error fault ↔
      (∀ subnet, ¬ Says entry subnet) ∧ IsFaultOf entry fault := by
  rcases settles entry with ⟨subnet, hok, hentry⟩ | ⟨fault', herror, hfault⟩
  · refine iff_of_false (fun h => ?_) fun h => h.1 subnet hentry
    cases hok.symm.trans h
  · constructor
    · intro h
      obtain rfl := Except.error.inj (herror.symm.trans h)
      refine ⟨fun subnet hentry => ?_, hfault⟩
      cases h.symm.trans hentry.parseTrimmed_eq
    · rintro ⟨-, h⟩
      rw [herror, hfault.unique h]

/-! ### Lists -/

/-- The entries of a list: none in the empty text, otherwise what stands between commas, trimmed. -/
def entries (s : Text) : List Text := if s = [] then [] else (s.splitOn ',').map trim

theorem parse_eq (s : Text) : parse s = (entries s).mapM parseTrimmed := by
  rw [parse, entries]
  split_ifs
  · rfl
  · rw [List.mapM_map]
    rfl

theorem parse_eq_ok_iff {list : Allowlist} :
    parse s = .ok list ↔ List.Forall₂ Says (entries s) list := by
  rw [parse_eq, mapM_eq_ok_iff]
  simp only [parseTrimmed_eq_ok_iff]

theorem parse_eq_error_iff :
    parse s = .error fault ↔ ∃ before entry after, entries s = before ++ entry :: after ∧
      (∀ earlier ∈ before, ∃ subnet, Says earlier subnet) ∧ (∀ subnet, ¬ Says entry subnet) ∧
        IsFaultOf entry fault := by
  rw [parse_eq, mapM_eq_error_iff]
  simp only [parseTrimmed_eq_ok_iff, parseTrimmed_eq_error_iff]

/-- **A list is read as a whole or not at all.**  It is read exactly if every entry says a subnet,
and then as these subnets in the order of the entries.  Otherwise the first entry that says none is
reported: as lacking an address if it is empty, has a second slash or does not start with an
address, and in every other case for its number, together with the width of the canonical address.
The empty text has no entries. -/
theorem parse_reads_all_or_first_fault (s : Text) :
    (∀ list, parse s = .ok list ↔ List.Forall₂ Says (entries s) list) ∧
    (∀ fault, parse s = .error fault ↔ ∃ before entry after,
      entries s = before ++ entry :: after ∧
        (∀ earlier ∈ before, ∃ subnet, Says earlier subnet) ∧ (∀ subnet, ¬ Says entry subnet) ∧
          IsFaultOf entry fault) ∧
    (parse s = .ok [] ↔ s = []) := by
  refine ⟨fun list => parse_eq_ok_iff, fun fault => parse_eq_error_iff, ?_⟩
  rw [parse_eq_ok_iff, List.forall₂_nil_right_iff, entries]
  split_ifs with hs
  · exact iff_of_true rfl hs
  · rw [List.map_eq_nil_iff]
    exact iff_of_false (List.splitOn_ne_nil _ s) hs

/-- The second entry is reported for its number, although the third lacks an address. -/
example : parse "::ffff:10.0.0.0/+008, 10.0.0.0/33 ,x/9".toList =
    .error (.badLength "10.0.0.0/33".toList 32) := by decide +kernel

end Allowlist

end ProxyAuth
