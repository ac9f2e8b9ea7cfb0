import Mathlib.Tactic
import ProxyAuth.Proofs.Nonce.Freshness
import ProxyAuth.Proofs.Verification
import ProxyAuth.Settings

/-!
# Nonces at the moment of their issue

A nonce is issued for the whole second, but checked to the nanosecond.  Where the window is shorter
than what the clock shows beyond the full second, a nonce is stale already when it is issued.

* `Verdict.ofText_eq_staleNonce_iff`: which headers are refused for a stale nonce;
* `Nonce.Covers`: the window is long enough at a time;
* `Nonce.covers_of_settings_iff`: which settings give a window that is;
* `Nonce.fresh_at_issue_iff`: what becomes of an answer that is given at once.
-/

namespace ProxyAuth

open Text

/-! ### Refusals for a stale nonce -/

namespace Verdict

variable {accounts : Accounts} {maxAge : Duration} {now : WallTime} {text : Text}
  {header : Header} {occasion : Occasion}

/-- The accounts say nothing about the nonce. -/
theorem ofAccount_ne_staleNonce : ofAccount accounts header occasion ≠ .refused .staleNonce := by
  unfold ofAccount ofResponse
  dsimp only
  split
  · simp
  · split_ifs
    · simp
    · simp
    · split
      · simp
      · split_ifs <;> simp

/-- A header is refused for a stale nonce if it is of digest authentication and its nonce is
stale, whatever else stands in it. -/
theorem ofText_eq_staleNonce_iff (h : Header.parse text = .ok header) :
    ofText accounts maxAge now text occasion = .refused .staleNonce ↔
      header.isDigest = true ∧ header.parameters ≠ [] ∧
        Nonce.freshness maxAge now (header.getD "nonce".toList) = .stale := by
  simp only [ofText, h, ofHeader]
  split_ifs with hdigest hempty
  · simp at hdigest
    simp [hdigest]
  · simp [hempty]
  · rw [Bool.not_eq_true', Bool.not_eq_false] at hdigest
    cases hfresh : Nonce.freshness maxAge now (header.getD "nonce".toList) with
    | fresh => simp [ofAccount_ne_staleNonce]
    | stale => simp [hdigest, hempty]
    | invalid => simp

end Verdict

/-! ### Answers that are given at once -/

namespace WallTime

/-- Nanoseconds beyond the whole seconds. -/
def subseconds (t : WallTime) : Int := t.nanoseconds % nanosecondsPerSecond

theorem subseconds_eq (t : WallTime) :
    t.subseconds = t.nanoseconds - t.wholeSeconds * nanosecondsPerSecond := by
  rw [subseconds, wholeSeconds, Int.emod_def, mul_comm]

theorem subseconds_nonneg (t : WallTime) : 0 ≤ t.subseconds :=
  Int.emod_nonneg _ (by decide)

theorem subseconds_lt (t : WallTime) : t.subseconds < nanosecondsPerSecond :=
  Int.emod_lt_of_pos _ (by decide)

end WallTime

namespace Nonce

variable {maxAge : Duration} {now : WallTime}

/-- The window reaches back from a time to the second for which a nonce is issued then.  Before 1970
this second is still to come. -/
def Covers (maxAge : Duration) (now : WallTime) : Prop :=
  now.nanoseconds < 0 ∨ now.subseconds ≤ maxAge.nanoseconds

theorem age_le_iff_covers :
    now.nanoseconds - max 0 now.wholeSeconds * nanosecondsPerSecond ≤ maxAge.nanoseconds ↔
      Covers maxAge now := by
  have hspec := now.wholeSeconds_spec
  have hsubseconds := now.subseconds_eq
  simp only [nanosecondsPerSecond] at hspec hsubseconds ⊢
  rw [Covers]
  omega

/-- A window of a second covers every time. -/
theorem covers_of_le (h : nanosecondsPerSecond ≤ maxAge.nanoseconds) : Covers maxAge now := by
  have hlt := now.subseconds_lt
  exact Or.inr (by omega)

theorem covers_ofSeconds_iff {n : Nat} :
    Covers (.ofSeconds n) now ↔ now.nanoseconds < 0 ∨ now.subseconds = 0 ∨ n ≠ 0 := by
  refine or_congr_right ?_
  have hnonneg := now.subseconds_nonneg
  have hlt := now.subseconds_lt
  simp only [Duration.ofSeconds, Duration.ofParts, nanosecondsPerSecond] at hlt ⊢
  omega

/-- The window of settings fails to cover a time only if it is set to nothing. -/
theorem covers_of_settings_iff (given : CommandLine.Values) (stored : SettingsFile.Values) :
    Covers (Settings.merge given stored).source.nonceMaxAge now ↔
      now.nanoseconds < 0 ∨ now.subseconds = 0 ∨
        (given.number? .nonceSeconds).or (stored.number? .nonceSeconds) ≠ some 0 := by
  have hwindow : (Settings.merge given stored).source.nonceMaxAge = .ofSeconds
    (((given.number? .nonceSeconds).or (stored.number? .nonceSeconds)).getD
      Settings.defaultNonceSeconds) := rfl
  rw [hwindow, covers_ofSeconds_iff]
  cases (given.number? .nonceSeconds).or (stored.number? .nonceSeconds) with
  | none => simp [Settings.defaultNonceSeconds]
  | some n => simp

theorem freshness_issue_self_eq_fresh_iff (h : now.InRange) :
    freshness maxAge now (issue now) = .fresh ↔ Covers maxAge now :=
  (freshness_issue_eq_fresh_iff h).trans age_le_iff_covers

theorem freshness_issue_self_eq_stale_iff (h : now.InRange) :
    freshness maxAge now (issue now) = .stale ↔ ¬ Covers maxAge now := by
  rw [← freshness_issue_self_eq_fresh_iff h]
  have hvalid : freshness maxAge now (issue now) ≠ .invalid := fun hinvalid =>
    freshness_eq_invalid_iff.mp hinvalid ⟨_, spells_issue h⟩
  cases hfresh : freshness maxAge now (issue now) with
  | fresh => simp
  | stale => simp
  | invalid => exact absurd hfresh hvalid

/-- **What becomes of a nonce that is sent back at once.**  While the clock stands still, a nonce
that was just issued is fresh if the window covers the time, and stale otherwise; so an answer with
it is refused for a stale nonce, whatever else stands in it, exactly if it is of digest
authentication and the window does not cover the time.  A window of a second covers every time, and
that of settings every time unless it is set to nothing, when it covers the full seconds and the
times before 1970 only. -/
theorem fresh_at_issue_iff (maxAge : Duration) {now : WallTime} (h : now.InRange) :
    (freshness maxAge now (issue now) = .fresh ↔ Covers maxAge now) ∧
    (freshness maxAge now (issue now) = .stale ↔ ¬ Covers maxAge now) ∧
    (∀ (accounts : Accounts) (text : Text) (header : Header) (occasion : Occasion),
      Header.parse text = .ok header → header.getD "nonce".toList = issue now →
      (Verdict.ofText accounts maxAge now text occasion = .refused .staleNonce ↔
        header.isDigest = true ∧ ¬ Covers maxAge now)) ∧
    (nanosecondsPerSecond ≤ maxAge.nanoseconds → Covers maxAge now) ∧
    ∀ (given : CommandLine.Values) (stored : SettingsFile.Values),
      Covers (Settings.merge given stored).source.nonceMaxAge now ↔
        now.nanoseconds < 0 ∨ now.subseconds = 0 ∨
          (given.number? .nonceSeconds).or (stored.number? .nonceSeconds) ≠ some 0 := by
  refine ⟨freshness_issue_self_eq_fresh_iff h, freshness_issue_self_eq_stale_iff h, ?_,
    covers_of_le, covers_of_settings_iff⟩
  intro accounts text header occasion hparse hnonce
  have hparameters : header.parameters ≠ [] := by
    intro hempty
    have hissue : issue now = [] := by rw [← hnonce, Header.getD, Header.get?, hempty]; rfl
    exact hexadecimal_ne_nil _ hissue
  rw [Verdict.ofText_eq_staleNonce_iff hparse, hnonce, freshness_issue_self_eq_stale_iff h]
  simp only [hparameters, ne_eq, not_false_eq_true, true_and]

/-- Half a second past a full second a nonce is fresh for a window of half a second, stale for every
shorter one, and an answer with it is refused where settings set the window to nothing. -/
theorem fresh_at_issue_of_half_second :
    let now : WallTime := .ofParts 1700000000 500000000
    let window := (Settings.merge [(.nonceSeconds, "0".toList)] []).source.nonceMaxAge
    let text := "Digest nonce=6553f100".toList
    now.InRange ∧ freshness (.ofMilliseconds 500) now (issue now) = .fresh ∧
      freshness ⟨499999999⟩ now (issue now) = .stale ∧
      ∃ header, Header.parse text = .ok header ∧ header.getD "nonce".toList = issue now ∧
        Verdict.ofText ⟨[]⟩ window now text ⟨"GET".toList, "/".toList, 80⟩ =
          .refused .staleNonce := by
  intro now window text
  have hrange : now.InRange := ⟨by decide, by decide⟩
  obtain ⟨hfresh, -⟩ := fresh_at_issue_iff (.ofMilliseconds 500) hrange
  obtain ⟨-, hstale, -⟩ := fresh_at_issue_iff ⟨499999999⟩ hrange
  obtain ⟨-, -, hrefused, -, hwindow⟩ := fresh_at_issue_iff window hrange
  have huncovered : ¬ Covers window now := by
    rw [hwindow]
    decide
  let header : Header := ⟨"Digest".toList, [("nonce".toList, "6553f100".toList)]⟩
  have hparse : Header.parse text = .ok header := by decide +kernel
  have hnonce : header.getD "nonce".toList = issue now := by decide +kernel
  refine ⟨hrange, hfresh.mpr (.inr (by decide)), hstale.mpr ?_, header, hparse, hnonce,
    (hrefused _ _ _ _ hparse hnonce).mpr ⟨by decide, huncovered⟩⟩
  rintro (hbefore | hshort)
  · exact absurd hbefore (by decide)
  · exact absurd hshort (by decide)

/-- With a window that is set to nothing, a nonce that was just issued is stale half a second past a
full second. -/
theorem not_fresh_at_issue :
    ¬ ∀ (given : CommandLine.Values) (stored : SettingsFile.Values) (now : WallTime),
      now.InRange →
      freshness (Settings.merge given stored).source.nonceMaxAge now (issue now) = .fresh := by
  intro hfresh
  let now : WallTime := .ofParts 1700000000 500000000
  have h := hfresh [(.nonceSeconds, "0".toList)] [] now ⟨by decide, by decide⟩
  have hstale : freshness (.ofSeconds 0) now (issue now) = .stale := by decide +kernel
  cases h.symm.trans hstale

end Nonce

end ProxyAuth
