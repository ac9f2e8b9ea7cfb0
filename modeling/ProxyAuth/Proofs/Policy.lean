import Mathlib.Tactic
import ProxyAuth.Policy
import ProxyAuth.Proofs.Accounts.Loading
import ProxyAuth.Proofs.Allowlist.Grammar

/-!
# Building a policy

A policy is built from all that its source says, or not at all.  The entry comes first, then the
file, then the allowlist, and the first of them that is at fault is reported.  Whether
authentication is required depends on the texts alone, so a source that asks for it gets no open
policy, even if nothing was found in its file.

* `ReadsAccounts`: the accounts that a source says;
* `IsFirstFault`: what is wrong with a source for which there is no policy;
* `Holds`: what a policy is made of;
* `build_eq_ok_iff`, `build_eq_error_iff`, `holds_of_build`: the outcomes;
* `colonFree_of_build`: the names in a policy;
* `build_all_or_first_fault`: what a maintainer can rely on.
-/

namespace ProxyAuth.Policy

open Text Accounts

namespace Source

variable {s : Source} {files : Files} {inline : Option Account} {loaded : List Account}
  {fault : SetupFault} {policy : Policy}

/-- The accounts that a source says: one in its entry at most, and those of its file, all of them
new. -/
structure ReadsAccounts (s : Source) (files : Files) (inline : Option Account)
    (loaded : List Account) : Prop where
  entry : Account.parse s.entry = .ok inline
  file : s.file = [] ∧ loaded = [] ∨ s.file ≠ [] ∧
    ∃ contents, (files s.file).bind Utf8.decode? = some contents ∧
      Admits (Accounts.empty.extended inline.toList) (entries (lines contents)) loaded

/-- The fault of a source: of its entry, else of its file, else of its allowlist. -/
inductive IsFirstFault (s : Source) (files : Files) : SetupFault → Prop
  | entry {fault : SetupFault} (h : Account.parse s.entry = .error fault) :
      IsFirstFault s files fault
  | file {fault : SetupFault} {inline : Option Account}
      (hentry : Account.parse s.entry = .ok inline) (hfile : s.file ≠ [])
      (h : IsFaultOfFile (Accounts.empty.extended inline.toList) files s.file fault) :
      IsFirstFault s files fault
  | allowlist {fault : SetupFault} {inline : Option Account} {loaded : List Account}
      (haccounts : s.ReadsAccounts files inline loaded)
      (h : Allowlist.parse s.allowlist = .error fault) : IsFirstFault s files fault

/-! ### Loading the accounts -/

/-- The loading of the entry. -/
def first (s : Source) : Loading := (Loading.start .empty).entry id s.entry

theorem first_of_ok (h : Account.parse s.entry = .ok inline) :
    s.first.fault = none ∧ s.first.accounts = Accounts.empty.extended inline.toList := by
  cases inline with
  | none => simp [first, Loading.entry, Loading.start, h]
  | some account => exact Loading.entry_of_new rfl h rfl id

theorem first_of_error (h : Account.parse s.entry = .error fault) :
    s.first.fault = some fault := by
  simp [first, Loading.entry, Loading.start, h]

theorem loading_eq (s : Source) (files : Files) :
    s.loading files = if s.file = [] then s.first else s.first.file files s.file := rfl

theorem loading_of_readsAccounts (h : s.ReadsAccounts files inline loaded) :
    (s.loading files).fault = none ∧
      (s.loading files).accounts = Accounts.empty.extended (inline.toList ++ loaded) := by
  obtain ⟨hfault, haccounts⟩ := first_of_ok h.entry
  rw [loading_eq]
  rcases h.file with ⟨hfile, rfl⟩ | ⟨hfile, contents, hread, hadmits⟩
  · rw [if_pos hfile, List.append_nil]
    exact ⟨hfault, haccounts⟩
  · rw [if_neg hfile, extended_append, ← haccounts]
    rw [← haccounts] at hadmits
    exact Loading.file_of_admits hfault hread hadmits

/-- Without a fault all accounts that the source says have been loaded. -/
theorem fault_loading_eq_none_iff :
    (s.loading files).fault = none ↔ ∃ inline loaded, s.ReadsAccounts files inline loaded := by
  constructor
  · intro h
    rw [loading_eq] at h
    cases hentry : Account.parse s.entry with
    | error fault =>
      have hfirst := first_of_error hentry
      rw [Loading.file_of_fault (by rw [hfirst]; rfl), ite_self] at h
      cases h.symm.trans hfirst
    | ok inline =>
      obtain ⟨hfault, haccounts⟩ := first_of_ok hentry
      split_ifs at h with hfile
      · exact ⟨inline, [], hentry, .inl ⟨hfile, rfl⟩⟩
      · cases hread : (files s.file).bind Utf8.decode? with
        | none =>
          obtain ⟨fault, hunread⟩ := Loading.file_of_unreadable hfault hread
          rw [hunread] at h
          cases h
        | some contents =>
          obtain ⟨loaded, hadmits⟩ := (Loading.fault_file_eq_none_iff hfault hread).mp h
          rw [haccounts] at hadmits
          exact ⟨inline, loaded, hentry, .inr ⟨hfile, contents, hread, hadmits⟩⟩
  · rintro ⟨inline, loaded, h⟩
    exact (loading_of_readsAccounts h).1

theorem fault_loading_eq_some_iff : (s.loading files).fault = some fault ↔
    Account.parse s.entry = .error fault ∨ ∃ inline, Account.parse s.entry = .ok inline ∧
      s.file ≠ [] ∧ IsFaultOfFile (Accounts.empty.extended inline.toList) files s.file fault := by
  rw [loading_eq]
  cases hentry : Account.parse s.entry with
  | error fault' =>
    have hfirst := first_of_error hentry
    rw [Loading.file_of_fault (by rw [hfirst]; rfl), ite_self, hfirst]
    simp
  | ok inline =>
    obtain ⟨hfault, haccounts⟩ := first_of_ok hentry
    by_cases hfile : s.file = []
    · simp [hfile, hfault]
    · rw [if_neg hfile, Loading.fault_file_eq_some_iff hfault, haccounts]
      simp [hfile]

/-! ### Building -/

/-- The policy of a source without a fault. -/
def policyOf (s : Source) (accounts : Accounts) (allowlist : Allowlist) : Policy :=
  ⟨s.requires, accounts, allowlist, s.nonceMaxAge, s.lifetime⟩

theorem build_of_fault (h : (s.loading files).fault = some fault) :
    s.build files = .error fault := by
  simp [build, h]

theorem build_of_readsAccounts (h : s.ReadsAccounts files inline loaded) :
    s.build files = (Allowlist.parse s.allowlist).map
      (s.policyOf (Accounts.empty.extended (inline.toList ++ loaded))) := by
  obtain ⟨hfault, haccounts⟩ := loading_of_readsAccounts h
  rw [← haccounts]
  simp only [build, hfault]
  rfl

theorem build_eq_ok_iff : s.build files = .ok policy ↔ ∃ inline loaded allowlist,
    s.ReadsAccounts files inline loaded ∧ Allowlist.parse s.allowlist = .ok allowlist ∧
      policy = s.policyOf (Accounts.empty.extended (inline.toList ++ loaded)) allowlist := by
  constructor
  · intro h
    cases hfault : (s.loading files).fault with
    | some fault => cases h.symm.trans (build_of_fault hfault)
    | none =>
      obtain ⟨inline, loaded, hreads⟩ := fault_loading_eq_none_iff.mp hfault
      rw [build_of_readsAccounts hreads] at h
      obtain ⟨allowlist, hallowlist, rfl⟩ := map_eq_ok.mp h
      exact ⟨inline, loaded, allowlist, hreads, hallowlist, rfl⟩
  · rintro ⟨inline, loaded, allowlist, hreads, hallowlist, rfl⟩
    rw [build_of_readsAccounts hreads, hallowlist]
    rfl

theorem build_eq_error_iff : s.build files = .error fault ↔ s.IsFirstFault files fault := by
  constructor
  · intro h
    cases hfault : (s.loading files).fault with
    | some fault' =>
      obtain rfl := Except.error.inj (h.symm.trans (build_of_fault hfault))
      rcases fault_loading_eq_some_iff.mp hfault with hentry | ⟨inline, hentry, hfile, hload⟩
      · exact .entry hentry
      · exact .file hentry hfile hload
    | none =>
      obtain ⟨inline, loaded, hreads⟩ := fault_loading_eq_none_iff.mp hfault
      rw [build_of_readsAccounts hreads] at h
      cases hallowlist : Allowlist.parse s.allowlist with
      | ok allowlist =>
        rw [hallowlist] at h
        cases h
      | error fault' =>
        rw [hallowlist] at h
        cases h
        exact .allowlist hreads hallowlist
  · rintro (hentry | ⟨hentry, hfile, hload⟩ | ⟨hreads, hallowlist⟩)
    · exact build_of_fault (fault_loading_eq_some_iff.mpr (.inl hentry))
    · exact build_of_fault (fault_loading_eq_some_iff.mpr (.inr ⟨_, hentry, hfile, hload⟩))
    · rw [build_of_readsAccounts hreads, hallowlist]
      rfl

/-! ### What a policy is made of -/

/-- A policy holds exactly what its source says. -/
structure Holds (policy : Policy) (s : Source) (inline : Option Account) (loaded : List Account) :
    Prop where
  accounts : policy.accounts.Extends .empty (inline.toList ++ loaded)
  allowlist : List.Forall₂ Allowlist.Says (Allowlist.entries s.allowlist) policy.allowlist
  required_eq_false_iff : policy.required = false ↔ s.entry = [] ∧ s.file = [] ∧ s.allowlist = []
  nonceMaxAge_eq : policy.nonceMaxAge = s.nonceMaxAge
  lifetime_eq : policy.lifetime = s.lifetime

/-- A text counts as empty if it is not given. -/
theorem texts_eq_nil_iff : (s.entry = [] ∧ s.file = [] ∧ s.allowlist = []) ↔
    ∀ text ∈ [s.entry?, s.file?, s.allowlist?], text = none ∨ text = some [] := by
  have hnil (text : Option Text) : text.getD [] = [] ↔ text = none ∨ text = some [] := by
    cases text <;> simp
  simp only [entry, file, allowlist, hnil, List.forall_mem_cons, List.not_mem_nil, false_imp_iff,
    implies_true, and_true]

theorem requires_eq_false_iff :
    s.requires = false ↔ s.entry = [] ∧ s.file = [] ∧ s.allowlist = [] := by
  simp [requires, and_assoc]

theorem ReadsAccounts.areNew (h : s.ReadsAccounts files inline loaded) :
    AreNew .empty (inline.toList ++ loaded) := by
  have hloaded : AreNew (Accounts.empty.extended inline.toList) loaded := by
    rcases h.file with ⟨-, rfl⟩ | ⟨-, contents, -, hadmits⟩
    · exact (admits_nil _).areNew
    · exact hadmits.areNew
  cases inline with
  | none => exact hloaded
  | some account => exact areNew_cons_iff.mpr ⟨rfl, hloaded⟩

theorem holds_of_build (h : s.build files = .ok policy)
    (hreads : s.ReadsAccounts files inline loaded) : Holds policy s inline loaded := by
  rw [build_of_readsAccounts hreads] at h
  obtain ⟨allowlist, hallowlist, rfl⟩ := map_eq_ok.mp h
  exact ⟨hreads.areNew.extends, Allowlist.parse_eq_ok_iff.mp hallowlist, requires_eq_false_iff, rfl,
    rfl⟩

/-- No policy has an account with a colon in its name. -/
theorem colonFree_of_build (h : s.build files = .ok policy) : policy.accounts.ColonFree := by
  obtain ⟨inline, loaded, allowlist, hreads, -, rfl⟩ := build_eq_ok_iff.mp h
  have hinline : ∀ account ∈ inline.toList, ':' ∉ account.name := fun account hmem => by
    rw [Option.mem_toList.mp hmem] at hreads
    exact Account.not_mem_name_of_parse hreads.entry
  have hloaded : ∀ account ∈ loaded, ':' ∉ account.name := by
    rcases hreads.file with ⟨-, rfl⟩ | ⟨-, contents, -, hadmits⟩
    · exact List.forall_mem_nil _
    · exact hadmits.not_mem_colon
  intro account hmem
  have hadded : account ∈ loaded ∨ account ∈ inline.toList := by
    simpa [policyOf, extended, empty] using hmem
  exact hadded.elim (hloaded account) (hinline account)

/-- An open policy has no account and no subnet, and was built without a file. -/
theorem Holds.isEmpty_of_open (h : Holds policy s inline loaded)
    (hreads : s.ReadsAccounts files inline loaded) (hopen : policy.required = false) :
    policy.accounts.isEmpty = true ∧ policy.allowlist = [] ∧ s.file = [] := by
  obtain ⟨hentry, hfile, hallowlist⟩ := h.required_eq_false_iff.mp hopen
  have hinline : inline = none := by
    have hparse := hreads.entry
    rw [hentry] at hparse
    exact (Except.ok.inj hparse).symm
  have hloaded : loaded = [] := by
    rcases hreads.file with ⟨-, hloaded⟩ | ⟨hne, -⟩
    · exact hloaded
    · exact absurd hfile hne
  refine ⟨?_, ?_, hfile⟩
  · have hsize := h.accounts.size_eq
    rw [hinline, hloaded] at hsize
    exact List.isEmpty_iff_length_eq_zero.mpr hsize
  · have hsays := h.allowlist
    rw [hallowlist] at hsays
    exact List.forall₂_nil_left_iff.mp hsays

/-- A name of the file that is the one of the entry is reported at its line. -/
theorem build_of_repeated {account other : Account} {contents line : Text}
    {front back : List Text} (hentry : Account.parse s.entry = .ok (some account))
    (hfile : s.file ≠ []) (hread : (files s.file).bind Utf8.decode? = some contents)
    (hlines : lines contents = front ++ line :: back)
    (hfront : Admits (Accounts.empty.extended [account]) (entries front) loaded)
    (hline : isRelevant (trim line) = true)
    (hparse : Account.parse (trim line) = .ok (some other)) (hname : other.name = account.name) :
    s.build files =
      .error (.badLine s.file (front.length + 1) (.repeatedAccount account.name)) := by
  have htaken : ((Accounts.empty.extended [account]).get? other.name).isSome := by
    rw [get?_extended_singleton, if_pos hname.symm]
    rfl
  have hfirst : FirstFault (Accounts.empty.extended [account]) (lines contents)
      (front.length + 1) loaded (.repeatedAccount other.name) :=
    ⟨front, line, back, hlines, rfl, hfront, hline, .repeated hparse (.inl htaken)⟩
  rw [hname] at hfirst
  exact build_eq_error_iff.mpr
    (.file hentry hfile (.line hread hfirst))

end Source

/-- **A policy is built from all of its source, or the first fault is reported.**  There is one
exactly if entry, file and allowlist can be read, and then it holds exactly what they say.
Authentication is not required exactly if all three are empty or absent, so never where the policy
has an account or a subnet, or a file was named.  Otherwise the fault is that of the entry, else
that of the file, else that of the allowlist; a name of the file that is the one of the entry is
reported at its line. -/
theorem build_all_or_first_fault (s : Source) (files : Files) :
    ((∃ policy, s.build files = .ok policy) ↔
      (∃ inline loaded, s.ReadsAccounts files inline loaded) ∧
        ∃ allowlist, Allowlist.parse s.allowlist = .ok allowlist) ∧
    (∀ policy, s.build files = .ok policy →
      (∀ inline loaded, s.ReadsAccounts files inline loaded →
        Source.Holds policy s inline loaded) ∧
      (policy.accounts.isEmpty = false ∨ policy.allowlist ≠ [] ∨ s.file ≠ [] →
        policy.required = true) ∧
      (policy.required = false ↔
        ∀ text ∈ [s.entry?, s.file?, s.allowlist?], text = none ∨ text = some [])) ∧
    (∀ fault, s.build files = .error fault ↔ s.IsFirstFault files fault) ∧
    ∀ account contents front line back loaded other,
      Account.parse s.entry = .ok (some account) → s.file ≠ [] →
      (files s.file).bind Utf8.decode? = some contents → lines contents = front ++ line :: back →
      Admits (Accounts.empty.extended [account]) (entries front) loaded →
      isRelevant (trim line) = true → Account.parse (trim line) = .ok (some other) →
      other.name = account.name →
      s.build files =
        .error (.badLine s.file (front.length + 1) (.repeatedAccount account.name)) := by
  refine ⟨⟨?_, ?_⟩, fun policy h => ?_, fun fault => Source.build_eq_error_iff, ?_⟩
  · rintro ⟨policy, h⟩
    obtain ⟨inline, loaded, allowlist, hreads, hallowlist, -⟩ := Source.build_eq_ok_iff.mp h
    exact ⟨⟨inline, loaded, hreads⟩, allowlist, hallowlist⟩
  · rintro ⟨⟨inline, loaded, hreads⟩, allowlist, hallowlist⟩
    exact ⟨_, Source.build_eq_ok_iff.mpr ⟨inline, loaded, allowlist, hreads, hallowlist, rfl⟩⟩
  · obtain ⟨inline, loaded, -, hreads, -⟩ := Source.build_eq_ok_iff.mp h
    have hholds := Source.holds_of_build h hreads
    refine ⟨fun _ _ => Source.holds_of_build h, fun hany => ?_, ?_⟩
    · rw [← Bool.not_eq_false]
      intro hopen
      obtain ⟨hempty, hallowlist, hfile⟩ := hholds.isEmpty_of_open hreads hopen
      rcases hany with hany | hany | hany
      · cases hempty.symm.trans hany
      · exact hany hallowlist
      · exact hany hfile
    · exact hholds.required_eq_false_iff.trans Source.texts_eq_nil_iff
  · intro account contents front line back loaded other hentry hfile hread hlines hfront hline
      hparse hname
    exact Source.build_of_repeated hentry hfile hread hlines hfront hline hparse hname

/-- A file that takes the name of the entry on its third line, which is reported before an allowlist
that cannot be read; a file of comments and nothing else, with which authentication is required; and
a source of which one text is empty and the others are not given. -/
theorem build_all_or_first_fault_of_comments :
    let users := "# users\r\n\nalice:other:80\nbob".toList
    let comments := "# nobody\n\n  # yet".toList
    let files : Files := fun name =>
      ([("users".toList, users), ("comments".toList, comments)].lookup name).map Utf8.encode
    let full : Source :=
      { entry? := some "alice:secret".toList
        file? := some "users".toList
        allowlist? := some "10.0.0.0/99".toList }
    let commented : Source := { file? := some "comments".toList }
    let silent : Source := { allowlist? := some [] }
    full.build files = .error (.badLine "users".toList 3 (.repeatedAccount "alice".toList)) ∧
      (∃ policy, commented.build files = .ok policy ∧
        policy.required = true ∧ policy.accounts.size = 0) ∧
      ∃ policy, silent.build files = .ok policy ∧ policy.required = false := by
  intro users comments files full commented silent
  have husers : (files "users".toList).bind Utf8.decode? = some users := Utf8.decode?_encode users
  have hcomments : (files "comments".toList).bind Utf8.decode? = some comments :=
    Utf8.decode?_encode comments
  obtain ⟨-, -, -, hrepeated⟩ := build_all_or_first_fault full files
  obtain ⟨hcommented, hholds, -⟩ := build_all_or_first_fault commented files
  obtain ⟨hsilent, hholdsOpen, -⟩ := build_all_or_first_fault silent files
  refine ⟨?_, ?_, ?_⟩
  · let alice : Account := ⟨"alice".toList, "secret".toList, 0⟩
    have hfront : Admits (Accounts.empty.extended [alice]) (entries ["# users".toList, []]) [] := by
      have hentries : entries ["# users".toList, []] = [] := by decide
      rw [hentries]
      exact admits_nil _
    exact hrepeated alice users ["# users".toList, []] "alice:other:80".toList ["bob".toList] []
      ⟨"alice".toList, "other".toList, 80⟩ (by decide) (by decide) husers (by decide +kernel) hfront
      (by decide) (by decide) rfl
  · have hentries : entries (lines comments) = [] := by decide +kernel
    have hreads : commented.ReadsAccounts files none [] :=
      ⟨rfl, .inr ⟨by decide, comments, hcomments, hentries ▸ admits_nil _⟩⟩
    obtain ⟨policy, hpolicy⟩ := hcommented.mpr ⟨⟨none, [], hreads⟩, [], rfl⟩
    obtain ⟨hmade, hrequired, -⟩ := hholds policy hpolicy
    exact ⟨policy, hpolicy, hrequired (.inr (.inr (by decide))),
      (hmade _ _ hreads).accounts.size_eq⟩
  · have hreads : silent.ReadsAccounts files none [] := ⟨rfl, .inl ⟨rfl, rfl⟩⟩
    obtain ⟨policy, hpolicy⟩ := hsilent.mpr ⟨⟨none, [], hreads⟩, [], rfl⟩
    obtain ⟨-, -, hopen⟩ := hholdsOpen policy hpolicy
    exact ⟨policy, hpolicy, hopen.mpr (by decide)⟩

end ProxyAuth.Policy
