import Mathlib.Tactic
import ProxyAuth.Proofs.Nonce

/-!
# How long a nonce is fresh

The age of a nonce runs from the whole second in which it was issued, up to the nanosecond at which
it is checked.  So a nonce can come out older than it is by less than a second, and never younger.

* `Spells`: what counts as a time at all;
* `freshness_eq_invalid_iff`, `freshness_eq_stale_iff`, `freshness_eq_fresh_iff`: the outcomes;
* `spells_issue_iff`: a nonce that was issued says the whole second of its issue;
* `fresh_within_window`: the window of a nonce, from its issue on.
-/

namespace ProxyAuth

open Text

/-! ### Whole seconds -/

namespace WallTime

/-- Whole seconds from the start of 1970, rounded down; negative before. -/
def wholeSeconds (t : WallTime) : Int := t.nanoseconds / nanosecondsPerSecond

/-- The whole seconds fit a signed word of 64 bits, as those of every clock do. -/
def InRange (t : WallTime) : Prop := -2 ^ 63 ≤ t.wholeSeconds ∧ t.wholeSeconds ≤ 2 ^ 63 - 1

theorem unixSeconds_eq (t : WallTime) : (t.unixSeconds : Int) = max 0 t.wholeSeconds := by
  rw [unixSeconds, wholeSeconds, Int.ofNat_toNat, max_comm]

theorem InRange.unixSeconds_lt {t : WallTime} (h : t.InRange) :
    (t.unixSeconds : Int) < Nonce.wordHalf := by
  have hhigh := h.2
  rw [unixSeconds_eq, Nonce.wordHalf]
  omega

/-- Less than a second is lost by rounding down. -/
theorem wholeSeconds_spec (t : WallTime) :
    t.wholeSeconds * nanosecondsPerSecond ≤ t.nanoseconds ∧
      t.nanoseconds < t.wholeSeconds * nanosecondsPerSecond + nanosecondsPerSecond := by
  simp only [wholeSeconds, nanosecondsPerSecond]
  omega

end WallTime

namespace Nonce

variable {maxAge : Duration} {now later time : WallTime} {nonce : Text}

/-! ### The three outcomes -/

/-- The nonce is a hexadecimal numeral, perhaps with a sign, of a number of seconds that fits a
signed word of 64 bits. -/
def Spells (nonce : Text) (seconds : Int) : Prop :=
  IsSigned 16 nonce seconds ∧ -2 ^ 63 ≤ seconds ∧ seconds ≤ 2 ^ 63 - 1

theorem decode?_eq_some_iff_spells {seconds : Int} :
    decode? nonce = some seconds ↔ Spells nonce seconds := by
  rw [decode?_eq_some_iff, Spells, wordHalf]
  refine and_congr_right fun _ => ?_
  omega

theorem Spells.unique {v w : Int} (hv : Spells nonce v) (hw : Spells nonce w) : v = w :=
  Option.some.inj
    ((decode?_eq_some_iff_spells.mpr hv).symm.trans (decode?_eq_some_iff_spells.mpr hw))

theorem freshness_of_not_spells (h : ∀ seconds, ¬ Spells nonce seconds) :
    freshness maxAge now nonce = .invalid := by
  have hnone : decode? nonce = none := Option.eq_none_iff_forall_ne_some.mpr fun v hv =>
    h v (decode?_eq_some_iff_spells.mp hv)
  rw [freshness, hnone]

/-- The verdict on a nonce that is a time. -/
theorem freshness_of_spells {seconds : Int} (h : Spells nonce seconds) :
    freshness maxAge now nonce =
      if seconds < 0 ∨ maxAge.nanoseconds < now.nanoseconds - seconds * nanosecondsPerSecond then
        .stale
      else .fresh := by
  rw [freshness, decode?_eq_some_iff_spells.mpr h]
  dsimp only
  split_ifs <;> tauto

/-- A nonce says one time only. -/
theorem exists_spells_iff {p : Int → Prop} {seconds : Int} (h : Spells nonce seconds) :
    (∃ v, Spells nonce v ∧ p v) ↔ p seconds :=
  ⟨fun ⟨_, hv, hp⟩ => h.unique hv ▸ hp, fun hp => ⟨seconds, h, hp⟩⟩

theorem freshness_eq_invalid_iff :
    freshness maxAge now nonce = .invalid ↔ ¬ ∃ seconds, Spells nonce seconds := by
  by_cases h : ∃ seconds, Spells nonce seconds
  · obtain ⟨seconds, hseconds⟩ := h
    rw [freshness_of_spells hseconds]
    refine iff_of_false ?_ (not_not.mpr ⟨seconds, hseconds⟩)
    split_ifs <;> simp
  · exact iff_of_true (freshness_of_not_spells (not_exists.mp h)) h

/-- Both other outcomes are decided by the time that the nonce says. -/
theorem freshness_eq_iff {outcome : Freshness} (h : outcome ≠ .invalid) :
    freshness maxAge now nonce = outcome ↔ ∃ seconds, Spells nonce seconds ∧
      (if seconds < 0 ∨ maxAge.nanoseconds < now.nanoseconds - seconds * nanosecondsPerSecond then
        .stale
      else .fresh) = outcome := by
  by_cases hspells : ∃ seconds, Spells nonce seconds
  · obtain ⟨seconds, hseconds⟩ := hspells
    rw [freshness_of_spells hseconds, exists_spells_iff hseconds]
  · rw [freshness_of_not_spells (not_exists.mp hspells)]
    exact iff_of_false h.symm fun ⟨seconds, hseconds, _⟩ => hspells ⟨seconds, hseconds⟩

theorem freshness_eq_stale_iff :
    freshness maxAge now nonce = .stale ↔ ∃ seconds, Spells nonce seconds ∧
      (seconds < 0 ∨ maxAge.nanoseconds < now.nanoseconds - seconds * nanosecondsPerSecond) := by
  rw [freshness_eq_iff (by decide)]
  refine exists_congr fun seconds => and_congr_right fun _ => ?_
  split_ifs with hold <;> simp [hold]

theorem freshness_eq_fresh_iff :
    freshness maxAge now nonce = .fresh ↔ ∃ seconds, Spells nonce seconds ∧
      0 ≤ seconds ∧ now.nanoseconds - seconds * nanosecondsPerSecond ≤ maxAge.nanoseconds := by
  rw [freshness_eq_iff (by decide)]
  refine exists_congr fun seconds => and_congr_right fun _ => ?_
  rw [← not_lt, ← not_lt, ← not_or]
  split_ifs with hold <;> simp [hold]

/-- A stale nonce does not become fresh again. -/
theorem stale_of_le (hlater : now.nanoseconds ≤ later.nanoseconds)
    (h : freshness maxAge now nonce = .stale) : freshness maxAge later nonce = .stale := by
  obtain ⟨seconds, hseconds, hold⟩ := freshness_eq_stale_iff.mp h
  refine freshness_eq_stale_iff.mpr ⟨seconds, hseconds, hold.imp_right fun hold => ?_⟩
  omega

/-! ### Nonces that were issued -/

/-- A nonce that was issued says the whole second of its issue, if this fits a word. -/
theorem spells_issue_iff {seconds : Int} :
    Spells (issue time) seconds ↔ seconds = max 0 time.wholeSeconds ∧ seconds ≤ 2 ^ 63 - 1 := by
  rw [← decode?_eq_some_iff_spells, decode?_issue, time.unixSeconds_eq, wordHalf]
  split_ifs with hrange
  · rw [Option.some.injEq]
    omega
  · refine iff_of_false nofun ?_
    omega

theorem spells_issue (h : time.InRange) : Spells (issue time) (max 0 time.wholeSeconds) := by
  have hhigh := h.2
  exact spells_issue_iff.mpr ⟨rfl, by omega⟩

/-- The age of a nonce that was issued runs from the whole second of its issue. -/
theorem freshness_issue_eq_fresh_iff (h : time.InRange) :
    freshness maxAge now (issue time) = .fresh ↔
      now.nanoseconds - max 0 time.wholeSeconds * nanosecondsPerSecond ≤ maxAge.nanoseconds := by
  rw [freshness_eq_fresh_iff, exists_spells_iff (spells_issue h)]
  exact and_iff_right (le_max_left _ _)

/-- No nonce is fresh for longer than its window, counted from its issue. -/
theorem le_maxAge_of_fresh (htime : 0 ≤ time.nanoseconds)
    (h : freshness maxAge now (issue time) = .fresh) :
    now.nanoseconds - time.nanoseconds ≤ maxAge.nanoseconds := by
  obtain ⟨seconds, hseconds, -, hage⟩ := freshness_eq_fresh_iff.mp h
  obtain ⟨rfl, -⟩ := spells_issue_iff.mp hseconds
  have hspec := time.wholeSeconds_spec
  simp only [nanosecondsPerSecond] at hspec hage
  omega

/-- A nonce is fresh for its window but a second, counted from its issue. -/
theorem fresh_of_le_maxAge (hrange : time.InRange)
    (h : now.nanoseconds - time.nanoseconds ≤ maxAge.nanoseconds - nanosecondsPerSecond) :
    freshness maxAge now (issue time) = .fresh := by
  rw [freshness_issue_eq_fresh_iff hrange]
  have hspec := time.wholeSeconds_spec
  simp only [nanosecondsPerSecond] at hspec h ⊢
  omega

/-- **When a nonce is fresh.**  A text that is no hexadecimal numeral of a signed word is no nonce
at all.  A nonce is stale if its time lies before 1970 or further back than the window, and fresh
otherwise.  A nonce that was issued says the whole second of its issue; so from its issue on it is
fresh within the window but a second and never beyond the window, and once stale it stays so. -/
theorem fresh_within_window (maxAge : Duration) (now : WallTime) (nonce : Text) :
    (freshness maxAge now nonce = .invalid ↔ ¬ ∃ seconds, Spells nonce seconds) ∧
    (freshness maxAge now nonce = .stale ↔ ∃ seconds, Spells nonce seconds ∧
      (seconds < 0 ∨ maxAge.nanoseconds < now.nanoseconds - seconds * nanosecondsPerSecond)) ∧
    (freshness maxAge now nonce = .fresh ↔ ∃ seconds, Spells nonce seconds ∧
      0 ≤ seconds ∧ now.nanoseconds - seconds * nanosecondsPerSecond ≤ maxAge.nanoseconds) ∧
    (∀ time : WallTime, time.InRange →
      decode? (issue time) = some (max 0 time.wholeSeconds)) ∧
    (∀ time : WallTime, 0 ≤ time.nanoseconds → freshness maxAge now (issue time) = .fresh →
      now.nanoseconds - time.nanoseconds ≤ maxAge.nanoseconds) ∧
    (∀ time : WallTime, time.InRange →
      now.nanoseconds - time.nanoseconds ≤ maxAge.nanoseconds - nanosecondsPerSecond →
      freshness maxAge now (issue time) = .fresh) ∧
    ∀ later : WallTime, now.nanoseconds ≤ later.nanoseconds →
      freshness maxAge now nonce = .stale → freshness maxAge later nonce = .stale :=
  ⟨freshness_eq_invalid_iff, freshness_eq_stale_iff, freshness_eq_fresh_iff,
    fun _ htime => decode?_eq_some_iff_spells.mpr (spells_issue htime),
    fun _ => le_maxAge_of_fresh, fun _ => fresh_of_le_maxAge, fun _ => stale_of_le⟩

/-- Three quarters of a second after its issue a nonce is still fresh for a window that is a second
longer, and stale, a day later too, for one that is only half a second longer. -/
theorem fresh_within_window_of_quarters :
    let issued : WallTime := .ofParts 255 750000000
    let now : WallTime := .ofParts 256 500000000
    issued.InRange ∧ decode? (issue issued) = some 255 ∧
      freshness (.ofParts 1 750000000) now (issue issued) = .fresh ∧
      now.nanoseconds - issued.nanoseconds ≤ (Duration.ofParts 1 750000000).nanoseconds ∧
      freshness (.ofParts 1 250000000) now (issue issued) = .stale ∧
      freshness (.ofParts 1 250000000) (now.advance (.ofSeconds 86400)) (issue issued) =
        .stale := by
  intro issued now
  have hrange : issued.InRange := ⟨by decide, by decide⟩
  obtain ⟨-, -, -, hdecode, hle, hfresh, -⟩ :=
    fresh_within_window (.ofParts 1 750000000) now (issue issued)
  obtain ⟨-, hstale, -, -, -, -, hlater⟩ :=
    fresh_within_window (.ofParts 1 250000000) now (issue issued)
  have hnow := hfresh issued hrange (by decide)
  have hold := hstale.mpr ⟨255, decode?_eq_some_iff_spells.mp (by decide), by decide⟩
  exact ⟨hrange, hdecode issued hrange, hnow, hle issued (by decide) hnow, hold,
    hlater _ (by decide) hold⟩

end Nonce

end ProxyAuth
