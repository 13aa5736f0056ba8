import GroupLasso.Loss.Basic
import GroupLasso.Proofs.Convexity

/-!
Losses as their constructors return them. Whatever the family, there is one weight for each case and none is
negative; counts are not negative either, and successes lie between zero and the trials.
-/

namespace GroupLasso

open Scalar Failure

inductive Loss.Constructed {α : Type} [Scalar α] : Loss α → Prop
  | gaussian (response : Mat α) : Constructed (.gaussian (.ofResponse response))
  | weightedGaussian {response : Mat α} {weights : Array α} {loss : Gaussian α} :
      Gaussian.weighted response weights = .ok loss → Constructed (.gaussian loss)
  | counts {counts : Mat α} {loss : Multinomial α} :
      Multinomial.ofCounts counts = .ok loss → Constructed (.multinomial loss)
  | labels {labels : List Nat} {classes : Nat} {loss : Multinomial α} :
      Multinomial.ofLabels labels classes = .ok loss → Constructed (.multinomial loss)
  | weightedCounts {counts : Mat α} {weights : Array α} {loss : Multinomial α} :
      Multinomial.weighted counts weights = .ok loss → Constructed (.multinomial loss)
  | poisson {counts : Array α} {loss : Poisson α} :
      Poisson.ofCounts counts = .ok loss → Constructed (.poisson loss)
  | offsetPoisson {offset : Array α} {loss shifted : Poisson α} : Constructed (.poisson loss) →
      loss.withOffset offset = .ok shifted → Constructed (.poisson shifted)
  | weightedPoisson {weights : Array α} {loss weighted : Poisson α} : Constructed (.poisson loss) →
      loss.weighted weights = .ok weighted → Constructed (.poisson weighted)
  | successes {successes : Array α} {loss : Cloglog α} :
      Cloglog.ofSuccesses successes = .ok loss → Constructed (.cloglog loss)
  | trials {successes trials : Array α} {loss : Cloglog α} :
      Cloglog.ofTrials successes trials = .ok loss → Constructed (.cloglog loss)
  | offsetCloglog {offset : Array α} {loss shifted : Cloglog α} : Constructed (.cloglog loss) →
      loss.withOffset offset = .ok shifted → Constructed (.cloglog shifted)
  | weightedCloglog {weights : Array α} {loss weighted : Cloglog α} : Constructed (.cloglog loss) →
      loss.weighted weights = .ok weighted → Constructed (.cloglog weighted)

theorem CaseWeights.validate_unit (cases : Nat) :
    validate (unit cases : Array ℝ) cases = .ok () :=
  bind_eq_ok.2 ⟨(), expectLength_eq_ok.2 (by simp [unit]), unless_eq_ok.2 (by
    rw [Array.all_eq_true]
    simp [unit])⟩

theorem Multinomial.ofCounts_eq_ok {α : Type} [Scalar α] {counts : Mat α} {loss : Multinomial α} :
    ofCounts counts = .ok loss ↔
      badCount? counts = none ∧ loss = ⟨counts, CaseWeights.unit counts.rows⟩ := by
  unfold ofCounts
  cases badCount? counts with
  | some fault => exact ⟨nofun, nofun⟩
  | none => exact ⟨fun accepted => ⟨rfl, (Except.ok.inj accepted).symm⟩, fun found => by rw [found.2]⟩

namespace Cloglog

structure Binomial (loss : Cloglog ℝ) : Prop where
  nonneg : ∀ case, 0 ≤ loss.successes.getD case 0
  le_trials : ∀ case < loss.successes.size, loss.successes.getD case 0 ≤ loss.trials.getD case 0

theorem ofTrials_eq_ok {successes trials : Array ℝ} {loss : Cloglog ℝ}
    (accepted : ofTrials successes trials = .ok loss) :
    loss = ⟨successes, trials, none, CaseWeights.unit successes.size⟩ ∧ loss.Binomial := by
  obtain ⟨_, -, accepted⟩ := bind_eq_ok.1 accepted
  dsimp only at accepted
  split at accepted
  · cases accepted
  · rename_i faultless
    cases accepted
    have sound : ∀ case < successes.size, 0 ≤ successes.getD case 0 ∧
        successes.getD case 0 ≤ trials.getD case 0 := by
      simpa [isFinite] using faultless
    refine ⟨rfl, fun case => ?_, fun case bound => (sound case bound).2⟩
    by_cases bound : case < successes.size
    · exact (sound case bound).1
    · simp [Array.getD, bound]

end Cloglog

def Loss.SoundData (loss : Loss ℝ) : Prop :=
  match loss with
  | .gaussian _ | .poisson _ => True
  | .multinomial loss => Multinomial.badCount? loss.counts = none
  | .cloglog loss => loss.Binomial

/-- Data that the family accepts, and weights that are accepted for its cases. -/
structure Loss.Sound (loss : Loss ℝ) : Prop where
  weights : CaseWeights.validate loss.weights loss.shape.rows = .ok ()
  data : loss.SoundData

theorem Loss.Constructed.sound {loss : Loss ℝ} (constructed : loss.Constructed) : loss.Sound := by
  induction constructed with
  | gaussian response => exact ⟨CaseWeights.validate_unit response.rows, trivial⟩
  | weightedGaussian accepted =>
      obtain ⟨_, valid, accepted⟩ := bind_eq_ok.1 accepted
      cases accepted
      exact ⟨valid, trivial⟩
  | counts accepted =>
      obtain ⟨counted, rfl⟩ := Multinomial.ofCounts_eq_ok.1 accepted
      exact ⟨CaseWeights.validate_unit _, counted⟩
  | labels accepted =>
      unfold Multinomial.ofLabels at accepted
      split at accepted
      · cases accepted
      · obtain ⟨counted, rfl⟩ := Multinomial.ofCounts_eq_ok.1 accepted
        exact ⟨CaseWeights.validate_unit _, counted⟩
  | weightedCounts accepted =>
      obtain ⟨_, valid, accepted⟩ := bind_eq_ok.1 accepted
      obtain ⟨_, unweighted, accepted⟩ := bind_eq_ok.1 accepted
      obtain ⟨counted, rfl⟩ := Multinomial.ofCounts_eq_ok.1 unweighted
      cases accepted
      exact ⟨valid, counted⟩
  | poisson accepted =>
      unfold Poisson.ofCounts at accepted
      split at accepted
      · cases accepted
        exact ⟨CaseWeights.validate_unit _, trivial⟩
      · cases accepted
  | successes accepted =>
      obtain ⟨rfl, binomial⟩ := Cloglog.ofTrials_eq_ok accepted
      exact ⟨CaseWeights.validate_unit _, binomial⟩
  | trials accepted =>
      obtain ⟨rfl, binomial⟩ := Cloglog.ofTrials_eq_ok accepted
      exact ⟨CaseWeights.validate_unit _, binomial⟩
  | offsetPoisson _ accepted ih =>
      obtain ⟨_, -, accepted⟩ := bind_eq_ok.1 accepted
      cases accepted
      exact ⟨ih.weights, trivial⟩
  | weightedPoisson _ accepted _ =>
      obtain ⟨_, valid, accepted⟩ := bind_eq_ok.1 accepted
      cases accepted
      exact ⟨valid, trivial⟩
  | offsetCloglog _ accepted ih =>
      obtain ⟨_, -, accepted⟩ := bind_eq_ok.1 accepted
      have binomial : Cloglog.Binomial _ := ih.data
      cases accepted
      exact ⟨ih.weights, binomial.nonneg, binomial.le_trials⟩
  | weightedCloglog _ accepted ih =>
      obtain ⟨_, valid, accepted⟩ := bind_eq_ok.1 accepted
      have binomial : Cloglog.Binomial _ := ih.data
      cases accepted
      exact ⟨valid, binomial.nonneg, binomial.le_trials⟩

theorem Loss.Sound.natural {loss : Loss ℝ} (sound : loss.Sound)
    (family : ∀ cloglog, loss ≠ .cloglog cloglog) : loss.Natural := by
  cases loss with
  | gaussian loss => exact sound.weights
  | multinomial loss => exact ⟨sound.data, sound.weights⟩
  | poisson loss => exact sound.weights
  | cloglog loss => exact absurd rfl (family loss)

end GroupLasso
