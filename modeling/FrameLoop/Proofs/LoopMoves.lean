import FrameLoop.Proofs.Accounts
import FrameLoop.Proofs.Play
import Mathlib.Logic.Function.Iterate

/-! The loop of a run as moves: how it goes on while its iterations are completed, and where it ends. -/

namespace FrameLoop.Engine

variable {σ φ ω : Type} (F : Facades σ FrameStats) [Report ω φ]

/-- An iteration that is completed, and the pause after it. -/
def turn (e : Engine σ φ ω) : Engine σ φ ω := (pace .completed (step F e).2).2

/-- The moves of some completed iterations. -/
def rounds : Nat → List (Move σ)
  | 0 => []
  | n + 1 => .step :: .pace .completed :: rounds n

variable {F}

theorem loop_stop {e : Engine σ φ ω} (h : shouldContinue F e = false) (fuel : Nat) :
    loop F (fuel + 1) e = (true, e) := by
  rw [loop, get_bind, if_neg (by simpa using h)]
  rfl

theorem loop_turn {e : Engine σ φ ω} (h : shouldContinue F e = true)
    (hcompleted : (step F e).1 = some .completed) (fuel : Nat) :
    loop F (fuel + 1) e = loop F fuel (turn F e) := by
  rw [loop, get_bind, if_pos h, bind_apply, hcompleted]
  rfl

/-- A loop that goes on for some iterations, all of them completed, ends after them. -/
theorem loop_eq {n fuel : Nat} {e : Engine σ φ ω} (hfuel : n < fuel)
    (hgo : ∀ k < n, shouldContinue F ((turn F)^[k] e) = true ∧
      (step F ((turn F)^[k] e)).1 = some .completed)
    (hend : shouldContinue F ((turn F)^[n] e) = false) :
    loop F fuel e = (true, (turn F)^[n] e) := by
  induction n generalizing fuel e with
  | zero =>
    obtain ⟨fuel, rfl⟩ := Nat.exists_eq_succ_of_ne_zero (Nat.ne_of_gt hfuel)
    exact loop_stop hend fuel
  | succ n ih =>
    obtain ⟨fuel, rfl⟩ := Nat.exists_eq_succ_of_ne_zero (Nat.ne_zero_of_lt hfuel)
    obtain ⟨hcontinue, hcompleted⟩ := hgo 0 (Nat.succ_pos n)
    rw [Function.iterate_zero, id_eq] at hcontinue hcompleted
    simp only [Function.iterate_succ_apply] at hend ⊢
    rw [loop_turn hcontinue hcompleted]
    refine ih (Nat.lt_of_succ_lt_succ hfuel) (fun k hk => ?_) hend
    have hnext := hgo (k + 1) (Nat.succ_lt_succ hk)
    rwa [Function.iterate_succ_apply] at hnext

theorem play_cons (move : Move σ) (rest : List (Move σ)) (e : Engine σ φ ω) :
    (play F (move :: rest) e).2 = (play F rest (make F move e).2).2 := rfl

theorem glimpses_cons (move : Move σ) (rest : List (Move σ)) (e : Engine σ φ ω) :
    (play F (move :: rest) e).1 =
      ⟨(make F move e).1, (make F move e).2.simulationTime, (make F move e).2.scene.world⟩ ::
        (play F rest (make F move e).2).1 := rfl

theorem make_turn (e : Engine σ φ ω) :
    (make F (.pace .completed) (make F .step e).2).2 = turn F e := rfl

theorem play_rounds (n : Nat) (e : Engine σ φ ω) : (play F (rounds n) e).2 = (turn F)^[n] e := by
  induction n generalizing e with
  | zero => rfl
  | succ n ih =>
    rw [rounds, play_cons, play_cons, make_turn, ih, Function.iterate_succ_apply]

variable [Storage φ ω]

/-- A run that starts, and whose loop goes on for some iterations, all of them completed. -/
theorem run_eq {n fuel : Nat} {e : Engine σ φ ω} (hfuel : n < fuel) (hstart : (start F e).1 = .ok ())
    (hgo : ∀ k < n, shouldContinue F (play F (.start :: rounds k) e).2 = true ∧
      (step F (play F (.start :: rounds k) e).2).1 = some .completed)
    (hend : shouldContinue F (play F (.start :: rounds n) e).2 = false) :
    run F fuel e = (some (leave F (play F (.start :: rounds n) e).2).1,
      (leave F (play F (.start :: rounds n) e).2).2) := by
  have hplay (k : Nat) : (play F (.start :: rounds k) e).2 = (turn F)^[k] (start F e).2 := by
    have hfirst : (make F .start e).2 = (start F e).2 := rfl
    rw [play_cons, hfirst, play_rounds]
  simp only [hplay] at hgo hend ⊢
  have hloop := loop_eq hfuel hgo hend
  have hstart' : ((start F).run e).1 = .ok () := hstart
  rw [run, bind_apply, hstart']
  dsimp only
  rw [bind_apply]
  change (if (loop F fuel (start F e).2).1 then _ else _ :
    Action σ φ ω (Option (Except EngineError Unit))) (loop F fuel (start F e).2).2 = _
  rw [hloop]
  dsimp only
  rw [if_pos rfl, bind_apply, pure_apply]

end FrameLoop.Engine
