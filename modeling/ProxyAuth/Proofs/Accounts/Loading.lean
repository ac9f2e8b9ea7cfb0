import Mathlib.Tactic
import ProxyAuth.Accounts.File
import ProxyAuth.Proofs.Account.Grammar
import ProxyAuth.Proofs.Accounts.Growth

/-!
# What an account file adds to a table

A file adds the accounts of all its entries, or those in front of its first faulty line.  A line is
faulty if its entry cannot be read, or has a name that is already taken, by the table or by a line
before it.  An account that is there stays as it is.

* `Admits`: entries that can all be added;
* `FirstFault`: the first line that cannot, and what is wrong with it;
* `IsFaultOfFile`: that line, or that the file cannot be read at all;
* `admits_or_firstFault`: there is no third kind of file;
* `contents_of_admits`, `contents_of_firstFault`: what a run over the lines does;
* `load_all_or_until_first_fault`: a file.
-/

namespace ProxyAuth.Accounts

open Text

variable {accounts : Accounts} {account : Account} {added : List Account}
  {entry name file : Text} {texts ls : List Text} {cause : SetupFault} {number : Nat}

/-! ### Entries that can be added -/

/-- The entries among the lines of a file. -/
def entries (ls : List Text) : List Text := (ls.map trim).filter isRelevant

/-- The entries spell accounts, all of them new to the table. -/
structure Admits (accounts : Accounts) (texts : List Text) (added : List Account) : Prop where
  spelled : List.Forall₂ (fun text account => Account.parse text = .ok (some account)) texts added
  areNew : AreNew accounts added

/-- What is wrong with an entry behind others that have been added. -/
inductive IsFaultAfter (accounts : Accounts) (added : List Account) (entry : Text) :
    SetupFault → Prop
  | unread {fault : SetupFault} (h : Account.parse entry = .error fault) :
      IsFaultAfter accounts added entry fault
  | repeated {account : Account} (h : Account.parse entry = .ok (some account))
      (hname : (accounts.get? account.name).isSome ∨
        ∃ earlier ∈ added, earlier.name = account.name) :
      IsFaultAfter accounts added entry (.repeatedAccount account.name)

/-- The number of the first line whose entry cannot be added, counted from one, the accounts of the
lines before it, and what is wrong with it. -/
def FirstFault (accounts : Accounts) (ls : List Text) (number : Nat) (added : List Account)
    (cause : SetupFault) : Prop :=
  ∃ front line back, ls = front ++ line :: back ∧ number = front.length + 1 ∧
    Admits accounts (entries front) added ∧ isRelevant (trim line) = true ∧
      IsFaultAfter accounts added (trim line) cause

theorem entries_cons_of_pos {line : Text} (h : isRelevant (trim line) = true) (ls : List Text) :
    entries (line :: ls) = trim line :: entries ls :=
  List.filter_cons_of_pos h

theorem entries_cons_of_neg {line : Text} (h : ¬ isRelevant (trim line) = true) (ls : List Text) :
    entries (line :: ls) = entries ls :=
  List.filter_cons_of_neg h

theorem admits_nil (accounts : Accounts) : Admits accounts [] [] :=
  ⟨.nil, List.nodup_nil, List.forall_mem_nil _⟩

theorem admits_cons_iff : Admits accounts (entry :: texts) added ↔
    ∃ account rest, added = account :: rest ∧ Account.parse entry = .ok (some account) ∧
      accounts.get? account.name = none ∧ Admits (accounts.extended [account]) texts rest := by
  constructor
  · rintro ⟨hspelled, hnew⟩
    obtain ⟨account, rest, hparse, hrest, rfl⟩ := List.forall₂_cons_left_iff.mp hspelled
    obtain ⟨hnone, hnew⟩ := areNew_cons_iff.mp hnew
    exact ⟨account, rest, rfl, hparse, hnone, hrest, hnew⟩
  · rintro ⟨account, rest, rfl, hparse, hnone, hrest, hnew⟩
    exact ⟨.cons hparse hrest, areNew_cons_iff.mpr ⟨hnone, hnew⟩⟩

/-- No name that is added has a colon. -/
theorem Admits.not_mem_colon (h : Admits accounts texts added) :
    ∀ account ∈ added, ':' ∉ account.name := by
  obtain ⟨hspelled, -⟩ := h
  induction hspelled with
  | nil => exact List.forall_mem_nil _
  | cons hparse _ ih => exact List.forall_mem_cons.mpr ⟨Account.not_mem_name_of_parse hparse, ih⟩

/-- The entries can be added in any order. -/
theorem Admits.exists_of_perm {texts' : List Text} (h : Admits accounts texts added)
    (hperm : texts'.Perm texts) :
    ∃ added', added'.Perm added ∧ Admits accounts texts' added' := by
  obtain ⟨added', hspelled, hadded⟩ := List.perm_comp_forall₂ hperm h.spelled
  refine ⟨added', hadded, hspelled, ?_, fun account haccount => ?_⟩
  · exact (hadded.map _).nodup_iff.mpr h.areNew.nodup
  · exact h.areNew.get?_eq_none account (hadded.mem_iff.mp haccount)

theorem entries_perm {ls' : List Text} (h : ls'.Perm ls) : (entries ls').Perm (entries ls) :=
  (h.map _).filter _

/-- Accounts that have been added count as accounts of the table for all that follows. -/
theorem isFaultAfter_append_iff (front : List Account) :
    IsFaultAfter accounts (front ++ added) entry cause ↔
      IsFaultAfter (accounts.extended front) added entry cause := by
  have htaken (name : Text) : ((accounts.get? name).isSome ∨
      ∃ earlier ∈ front ++ added, earlier.name = name) ↔
        ((accounts.extended front).get? name).isSome ∨ ∃ earlier ∈ added, earlier.name = name := by
    rw [← isSome_get?_extended, ← isSome_get?_extended, extended_append]
  constructor
  · rintro (h | ⟨h, hname⟩)
    · exact .unread h
    · exact .repeated h ((htaken _).mp hname)
  · rintro (h | ⟨h, hname⟩)
    · exact .unread h
    · exact .repeated h ((htaken _).mpr hname)

theorem FirstFault.head {line : Text} (hline : isRelevant (trim line) = true)
    (h : IsFaultAfter accounts [] (trim line) cause) (ls : List Text) :
    FirstFault accounts (line :: ls) 1 [] cause :=
  ⟨[], line, ls, rfl, rfl, admits_nil accounts, hline, h⟩

theorem FirstFault.cons_of_neg {line : Text} (hline : ¬ isRelevant (trim line) = true)
    (h : FirstFault accounts ls number added cause) :
    FirstFault accounts (line :: ls) (number + 1) added cause := by
  obtain ⟨front, bad, back, rfl, rfl, hfront, hbad, hfault⟩ := h
  refine ⟨line :: front, bad, back, rfl, rfl, ?_, hbad, hfault⟩
  rwa [entries_cons_of_neg hline]

theorem FirstFault.cons_of_pos {line : Text} (hline : isRelevant (trim line) = true)
    (hparse : Account.parse (trim line) = .ok (some account))
    (hnone : accounts.get? account.name = none)
    (h : FirstFault (accounts.extended [account]) ls number added cause) :
    FirstFault accounts (line :: ls) (number + 1) (account :: added) cause := by
  obtain ⟨front, bad, back, rfl, rfl, hfront, hbad, hfault⟩ := h
  refine ⟨line :: front, bad, back, rfl, rfl, ?_, hbad,
    (isFaultAfter_append_iff [account]).mpr hfault⟩
  rw [entries_cons_of_pos hline]
  exact admits_cons_iff.mpr ⟨account, added, rfl, hparse, hnone, hfront⟩

/-- Either all entries can be added, or one of them is the first that cannot. -/
theorem admits_or_firstFault (accounts : Accounts) (ls : List Text) :
    (∃ added, Admits accounts (entries ls) added) ∨
      ∃ number added cause, FirstFault accounts ls number added cause := by
  induction ls generalizing accounts with
  | nil => exact .inl ⟨[], admits_nil accounts⟩
  | cons line ls ih =>
    by_cases hline : isRelevant (trim line) = true
    · cases hparse : Account.parse (trim line) with
      | error fault => exact .inr ⟨1, [], fault, .head hline (.unread hparse) ls⟩
      | ok account? =>
        cases account? with
        | none =>
          rw [Account.parse_eq_ok_none_iff.mp hparse] at hline
          cases hline
        | some account =>
          cases hget : accounts.get? account.name with
          | some taken =>
            have htaken : (accounts.get? account.name).isSome := by rw [hget]; rfl
            exact .inr ⟨1, [], _, .head hline (.repeated hparse (.inl htaken)) ls⟩
          | none =>
            rcases ih (accounts.extended [account]) with ⟨added, h⟩ | ⟨number, added, cause, h⟩
            · rw [entries_cons_of_pos hline]
              exact .inl ⟨_, admits_cons_iff.mpr ⟨account, added, rfl, hparse, hget, h⟩⟩
            · exact .inr ⟨_, _, cause, h.cons_of_pos hline hparse hget⟩
    · rcases ih accounts with ⟨added, h⟩ | ⟨number, added, cause, h⟩
      · rw [entries_cons_of_neg hline]
        exact .inl ⟨added, h⟩
      · exact .inr ⟨_, added, cause, h.cons_of_neg hline⟩

/-! ### Runs over the lines of a file -/

namespace Loading

variable {l : Loading} {locate : SetupFault → SetupFault} {contents : Text}

theorem entry_of_new (hl : l.fault = none) (hparse : Account.parse entry = .ok (some account))
    (hnone : l.accounts.get? account.name = none) (locate : SetupFault → SetupFault) :
    (l.entry locate entry).fault = none ∧
      (l.entry locate entry).accounts = l.accounts.extended [account] := by
  have hinsert : l.accounts.insert account = .ok (l.accounts.extended [account]) := by
    rw [insert, hnone]
    rfl
  simp [Loading.entry, hl, hparse, hinsert]

/-- A faulty entry ends the loading. -/
theorem entry_of_isFaultAfter (hl : l.fault = none) (h : IsFaultAfter l.accounts [] entry cause)
    (locate : SetupFault → SetupFault) :
    (l.entry locate entry).fault = some (locate cause) ∧
      (l.entry locate entry).accounts = l.accounts := by
  cases h with
  | unread hparse => simp [Loading.entry, hl, hparse]
  | @repeated account hparse htaken =>
    have hinsert : l.accounts.insert account = .error (.repeatedAccount account.name) := by
      rw [insert, if_pos (by simpa using htaken)]
    simp [Loading.entry, hl, hparse, hinsert]

/-- What a line with its number adds to the loading of a file. -/
def line (file : Text) (l : Loading) (numbered : Text × Nat) : Loading :=
  if isRelevant (trim numbered.1) then l.entry (.badLine file numbered.2) (trim numbered.1) else l

theorem contents_eq (file contents : Text) (l : Loading) :
    l.contents file contents = ((Text.lines contents).zipIdx 1).foldl (line file) l := by
  rw [Loading.contents, fileEntries, List.foldl_filterMap, List.zipIdx_map, List.foldl_map]
  congr 1
  funext l numbered
  simp only [line, Prod.map]
  split_ifs <;> rfl

theorem foldl_line_of_fault (hl : l.fault.isSome = true) (numbered : List (Text × Nat)) :
    numbered.foldl (line file) l = l := by
  induction numbered with
  | nil => rfl
  | cons first rest ih =>
    have hfirst : line file l first = l := by
      rw [line, entry_of_fault hl]
      split_ifs <;> rfl
    rw [List.foldl_cons, hfirst, ih]

/-- Lines that are admitted are all added. -/
theorem foldl_line_of_admits (hl : l.fault = none) (h : Admits l.accounts (entries ls) added)
    (file : Text) (number : Nat) :
    ((ls.zipIdx number).foldl (line file) l).fault = none ∧
      ((ls.zipIdx number).foldl (line file) l).accounts = l.accounts.extended added := by
  induction ls generalizing l added number with
  | nil =>
    obtain rfl := List.forall₂_nil_left_iff.mp h.spelled
    exact ⟨hl, rfl⟩
  | cons first ls ih =>
    rw [List.zipIdx_cons, List.foldl_cons]
    by_cases hfirst : isRelevant (trim first) = true
    · rw [entries_cons_of_pos hfirst] at h
      obtain ⟨account, rest, rfl, hparse, hnone, hrest⟩ := admits_cons_iff.mp h
      obtain ⟨hfault, haccounts⟩ := entry_of_new hl hparse hnone (.badLine file number)
      rw [line, if_pos hfirst, ← List.singleton_append, extended_append, ← haccounts]
      rw [← haccounts] at hrest
      exact ih hfault hrest (number + 1)
    · rw [entries_cons_of_neg hfirst] at h
      rw [line, if_neg hfirst]
      exact ih hl h (number + 1)

theorem contents_of_admits (hl : l.fault = none)
    (h : Admits l.accounts (entries (Text.lines contents)) added) (file : Text) :
    (l.contents file contents).fault = none ∧
      (l.contents file contents).accounts = l.accounts.extended added := by
  rw [contents_eq]
  exact foldl_line_of_admits hl h file 1

/-- The first faulty line ends the loading, with the accounts of the lines before it. -/
theorem contents_of_firstFault (hl : l.fault = none)
    (h : FirstFault l.accounts (Text.lines contents) number added cause) (file : Text) :
    (l.contents file contents).fault = some (.badLine file number cause) ∧
      (l.contents file contents).accounts = l.accounts.extended added := by
  obtain ⟨front, bad, back, hlines, rfl, hfront, hbad, hcause⟩ := h
  have hfront := foldl_line_of_admits hl hfront file 1
  rw [contents_eq, hlines, List.zipIdx_append, List.foldl_append, List.zipIdx_cons,
    List.foldl_cons, Nat.add_comm 1]
  generalize (front.zipIdx 1).foldl (line file) l = before at hfront ⊢
  obtain ⟨hfault, haccounts⟩ := hfront
  have hcause : IsFaultAfter before.accounts [] (trim bad) cause := by
    rw [haccounts, ← isFaultAfter_append_iff, List.append_nil]
    exact hcause
  obtain ⟨hended, hkept⟩ := entry_of_isFaultAfter hfault hcause (.badLine file (front.length + 1))
  rw [line, if_pos hbad, foldl_line_of_fault (by rw [hended]; rfl)]
  exact ⟨hended, hkept.trans haccounts⟩

end Loading

/-! ### Files -/

section

variable {l : Loading} {files : Files} {contents : Text} {fault : SetupFault}

theorem readText_of_decode? (h : (files name).bind Utf8.decode? = some contents) :
    files.readText name = .ok contents := by
  obtain ⟨bytes, hbytes, hdecode⟩ := Option.bind_eq_some_iff.mp h
  simp [Files.readText, hbytes, hdecode]

theorem exists_readText_eq_error (h : (files name).bind Utf8.decode? = none) :
    ∃ fault, files.readText name = .error fault := by
  cases hbytes : files name with
  | none => exact ⟨.missing, by simp [Files.readText, hbytes]⟩
  | some bytes =>
    rw [hbytes, Option.bind_some] at h
    exact ⟨.notText, by simp [Files.readText, hbytes, h]⟩

/-- What is wrong with a file that is not loaded as a whole. -/
inductive IsFaultOfFile (accounts : Accounts) (files : Files) (name : Text) : SetupFault → Prop
  | missing (h : files name = none) :
      IsFaultOfFile accounts files name (.unreadableFile name .missing)
  | notText {bytes : Bytes} (h : files name = some bytes) (hdecode : Utf8.decode? bytes = none) :
      IsFaultOfFile accounts files name (.unreadableFile name .notText)
  | line {contents : Text} {number : Nat} {added : List Account} {cause : SetupFault}
      (hread : (files name).bind Utf8.decode? = some contents)
      (h : FirstFault accounts (lines contents) number added cause) :
      IsFaultOfFile accounts files name (.badLine name number cause)

namespace Loading

theorem file_of_fault (hl : l.fault.isSome = true) (files : Files) (name : Text) :
    l.file files name = l := by
  rw [Loading.file, if_pos hl]

/-- A file that is missing or no text adds nothing. -/
theorem file_of_unreadable (hl : l.fault = none) (h : (files name).bind Utf8.decode? = none) :
    ∃ fault, l.file files name = { l with fault := some (.unreadableFile name fault) } := by
  obtain ⟨fault, hread⟩ := exists_readText_eq_error h
  exact ⟨fault, by simp [Loading.file, hl, hread]⟩

theorem file_of_readable (hl : l.fault = none)
    (h : (files name).bind Utf8.decode? = some contents) :
    l.file files name = l.contents name contents := by
  simp [Loading.file, hl, readText_of_decode? h]

theorem file_of_admits (hl : l.fault = none) (h : (files name).bind Utf8.decode? = some contents)
    (hadmits : Admits l.accounts (entries (Text.lines contents)) added) :
    (l.file files name).fault = none ∧
      (l.file files name).accounts = l.accounts.extended added := by
  rw [file_of_readable hl h]
  exact contents_of_admits hl hadmits name

theorem file_of_firstFault (hl : l.fault = none)
    (h : (files name).bind Utf8.decode? = some contents)
    (hfirst : FirstFault l.accounts (Text.lines contents) number added cause) :
    (l.file files name).fault = some (.badLine name number cause) ∧
      (l.file files name).accounts = l.accounts.extended added := by
  rw [file_of_readable hl h]
  exact contents_of_firstFault hl hfirst name

theorem fault_file_eq_none_iff (hl : l.fault = none)
    (h : (files name).bind Utf8.decode? = some contents) :
    (l.file files name).fault = none ↔
      ∃ added, Admits l.accounts (entries (Text.lines contents)) added := by
  constructor
  · intro hnone
    rcases admits_or_firstFault l.accounts (Text.lines contents) with
      hadmits | ⟨number, added, cause, hfirst⟩
    · exact hadmits
    · cases hnone.symm.trans (file_of_firstFault hl h hfirst).1
  · rintro ⟨added, hadmits⟩
    exact (file_of_admits hl h hadmits).1

/-- The fault of a file is its first one. -/
theorem fault_file_eq_some_iff (hl : l.fault = none) :
    (l.file files name).fault = some fault ↔ IsFaultOfFile l.accounts files name fault := by
  constructor
  · intro h
    cases hbytes : files name with
    | none =>
      obtain rfl : .unreadableFile name .missing = fault := by
        simpa [Loading.file, Files.readText, hl, hbytes] using h
      exact .missing hbytes
    | some bytes =>
      cases hdecode : Utf8.decode? bytes with
      | none =>
        obtain rfl : .unreadableFile name .notText = fault := by
          simpa [Loading.file, Files.readText, hl, hbytes, hdecode] using h
        exact .notText hbytes hdecode
      | some contents =>
        have hread : (files name).bind Utf8.decode? = some contents := by
          rw [hbytes, Option.bind_some, hdecode]
        rcases admits_or_firstFault l.accounts (Text.lines contents) with
          ⟨added, hadmits⟩ | ⟨number, added, cause, hfirst⟩
        · cases h.symm.trans (file_of_admits hl hread hadmits).1
        · obtain rfl := Option.some.inj (h.symm.trans (file_of_firstFault hl hread hfirst).1)
          exact .line hread hfirst
  · rintro (hbytes | ⟨hbytes, hdecode⟩ | ⟨hread, hfirst⟩)
    · simp [Loading.file, Files.readText, hl, hbytes]
    · simp [Loading.file, Files.readText, hl, hbytes, hdecode]
    · exact (file_of_firstFault hl hread hfirst).1

end Loading

theorem Admits.extends_load (h : Admits accounts (entries (lines contents)) added)
    (hread : (files name).bind Utf8.decode? = some contents) :
    (accounts.load files name).accounts.Extends accounts added := by
  rw [load, (Loading.file_of_admits rfl hread h).2]
  exact h.areNew.extends

theorem FirstFault.extends_load (h : FirstFault accounts (lines contents) number added cause)
    (hread : (files name).bind Utf8.decode? = some contents) :
    (accounts.load files name).accounts.Extends accounts added := by
  rw [load, (Loading.file_of_firstFault rfl hread h).2]
  obtain ⟨front, line, back, -, -, hfront, -⟩ := h
  exact hfront.areNew.extends

/-- Whatever becomes of a file, the table only grows. -/
theorem exists_extends_load (accounts : Accounts) (files : Files) (name : Text) :
    ∃ added, (accounts.load files name).accounts.Extends accounts added := by
  cases hread : (files name).bind Utf8.decode? with
  | none =>
    obtain ⟨fault, hfile⟩ := Loading.file_of_unreadable (l := .start accounts) rfl hread
    refine ⟨[], ?_⟩
    rw [load, hfile]
    exact (admits_nil accounts).areNew.extends
  | some contents =>
    rcases admits_or_firstFault accounts (lines contents) with
      ⟨added, hadmits⟩ | ⟨number, added, cause, hfirst⟩
    · exact ⟨added, hadmits.extends_load hread⟩
    · exact ⟨added, hfirst.extends_load hread⟩

end

/-- **A file is loaded as a whole, or up to its first faulty line.**  A file that is missing or no
text is reported and adds nothing.  Any other is loaded without a fault exactly if all its entries
can be added, and then exactly their accounts are added, in whatever order the lines stand.
Otherwise the first line whose entry cannot be read, or has a name of the table or of a line before
it, is reported with its number and its own fault, and exactly the accounts of the lines before it
are added.  In no case an account that is there is replaced or removed. -/
theorem load_all_or_until_first_fault (accounts : Accounts) (files : Files) (name : Text) :
    let loaded := accounts.load files name
    (∀ fault, loaded.fault = some fault ↔ IsFaultOfFile accounts files name fault) ∧
    ((files name).bind Utf8.decode? = none → loaded.accounts = accounts) ∧
    (∀ contents, (files name).bind Utf8.decode? = some contents →
      (loaded.fault = none ↔ ∃ added, Admits accounts (entries (lines contents)) added) ∧
      (∀ added, Admits accounts (entries (lines contents)) added →
        loaded.accounts.Extends accounts added ∧
        ∀ other reordered, (files other).bind Utf8.decode? = some reordered →
          (lines reordered).Perm (lines contents) →
          (accounts.load files other).fault = none ∧
            (∀ key, (accounts.load files other).accounts.get? key = loaded.accounts.get? key) ∧
            (accounts.load files other).accounts.size = loaded.accounts.size) ∧
      ∀ number added cause, FirstFault accounts (lines contents) number added cause →
        loaded.accounts.Extends accounts added) ∧
    ∀ key account, accounts.get? key = some account →
      loaded.accounts.get? key = some account := by
  intro loaded
  refine ⟨fun fault => Loading.fault_file_eq_some_iff rfl, fun hread => ?_,
    fun contents hread => ?_, fun key account hget => ?_⟩
  · obtain ⟨fault, hfile⟩ := Loading.file_of_unreadable (l := .start accounts) rfl hread
    have hloaded : loaded = ⟨accounts, [], some (.unreadableFile name fault)⟩ := hfile
    rw [hloaded]
  · refine ⟨Loading.fault_file_eq_none_iff rfl hread, fun added hadmits => ?_,
      fun number added cause hfirst => hfirst.extends_load hread⟩
    have hextends : loaded.accounts.Extends accounts added := hadmits.extends_load hread
    refine ⟨hextends, fun other reordered hother hperm => ?_⟩
    obtain ⟨added', hadded, hadmits'⟩ := hadmits.exists_of_perm (entries_perm hperm)
    have hextends' := hadmits'.extends_load hother
    refine ⟨(Loading.file_of_admits rfl hother hadmits').1,
      hextends.get?_eq_of_perm hextends' hadded, ?_⟩
    rw [hextends'.size_eq, hextends.size_eq, hadded.length_eq]
  · obtain ⟨added, hextends⟩ := exists_extends_load accounts files name
    exact hextends.get?_eq_some hget

/-- Two orders of the same lines, with a comment, blanks and both kinds of line ends; a file whose
fourth line takes the name of an account that is there; and one that is missing. -/
theorem load_all_or_until_first_fault_of_two_orders :
    let accounts : Accounts := ⟨[⟨"alice".toList, "secret".toList, 0⟩]⟩
    let one := "# users\r\n\n bob: pw \ncarol:pw:80".toList
    let two := "carol:pw:80\r\n# users\n bob: pw \r\n\n".toList
    let bad := "bob: pw\n\n#\nalice:x\nbob".toList
    let files : Files := fun name =>
      ([("one".toList, one), ("two".toList, two), ("bad".toList, bad)].lookup name).map Utf8.encode
    let loaded (name : String) := accounts.load files name.toList
    (loaded "one").fault = none ∧ (loaded "two").fault = none ∧
      (∀ key, (loaded "two").accounts.get? key = (loaded "one").accounts.get? key) ∧
      (loaded "one").accounts.get? "bob".toList = some ⟨"bob".toList, " pw".toList, 0⟩ ∧
      (loaded "bad").fault =
        some (.badLine "bad".toList 4 (.repeatedAccount "alice".toList)) ∧
      (loaded "bad").accounts.size = 2 ∧
      (loaded "bad").accounts.get? "alice".toList =
        some ⟨"alice".toList, "secret".toList, 0⟩ ∧
      (loaded "none").fault = some (.unreadableFile "none".toList .missing) ∧
      (loaded "none").accounts = accounts := by
  intro accounts one two bad files loaded
  let alice : Account := ⟨"alice".toList, "secret".toList, 0⟩
  let bob : Account := ⟨"bob".toList, " pw".toList, 0⟩
  let carol : Account := ⟨"carol".toList, "pw".toList, 80⟩
  let other : Account := ⟨"alice".toList, "x".toList, 0⟩
  have hone : (files "one".toList).bind Utf8.decode? = some one := Utf8.decode?_encode one
  have htwo : (files "two".toList).bind Utf8.decode? = some two := Utf8.decode?_encode two
  have hbad : (files "bad".toList).bind Utf8.decode? = some bad := Utf8.decode?_encode bad
  have hnone : (files "none".toList).bind Utf8.decode? = none := rfl
  have hentries : entries (lines one) = ["bob: pw".toList, "carol:pw:80".toList] := by
    decide +kernel
  have hadmits : Admits accounts (entries (lines one)) [bob, carol] := by
    rw [hentries]
    exact ⟨.cons (by decide) (.cons (by decide) .nil), by decide, by decide⟩
  have hperm : (lines two).Perm (lines one) := by decide +kernel
  have hfirst : FirstFault accounts (lines bad) 4 [bob] (.repeatedAccount other.name) := by
    refine ⟨["bob: pw".toList, [], "#".toList], "alice:x".toList, ["bob".toList],
      by decide +kernel, rfl, ⟨?_, by decide, by decide⟩, by decide, ?_⟩
    · have hfront : entries ["bob: pw".toList, [], "#".toList] = ["bob: pw".toList] := by decide
      rw [hfront]
      exact .cons (by decide) .nil
    · have hparse : Account.parse (trim "alice:x".toList) = .ok (some other) := by decide
      have htaken : (accounts.get? other.name).isSome := by decide
      exact .repeated hparse (.inl htaken)
  obtain ⟨-, -, hreadable, -⟩ := load_all_or_until_first_fault accounts files "one".toList
  obtain ⟨hwhole, hadded, -⟩ := hreadable one hone
  obtain ⟨hextends, hreorder⟩ := hadded _ hadmits
  obtain ⟨hfault, hsame, -⟩ := hreorder _ two htwo hperm
  obtain ⟨hreported, -, hreadable, hkept⟩ :=
    load_all_or_until_first_fault accounts files "bad".toList
  obtain ⟨-, -, hbefore⟩ := hreadable bad hbad
  obtain ⟨hmissed, hunread, -⟩ := load_all_or_until_first_fault accounts files "none".toList
  exact ⟨hwhole.mpr ⟨_, hadmits⟩, hfault, hsame,
    (hextends.get?_eq_some_iff _ _).mpr (.inr ⟨List.mem_cons_self, rfl⟩),
    (hreported _).mpr (.line hbad hfirst), (hbefore _ _ _ hfirst).size_eq,
    hkept _ alice rfl, (hmissed _).mpr (.missing rfl), hunread hnone⟩

end ProxyAuth.Accounts
