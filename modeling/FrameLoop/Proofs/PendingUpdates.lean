import FrameLoop.Proofs.Service

/-! When a pending update changes the world: what is over when its allow returns has changed it before,
and what is still owed then changes it before the finish returns. -/

namespace FrameLoop

variable {σ κ : Type} [StatsSink κ] {F : Facades σ κ}

open Update

/-- The updates that were allowed and are not over. -/
def Update.Threaded.owed (t : Threaded) : List Stamp := t.worker.underWay ++ Threaded.starting.held t

namespace Update.Threaded

variable {t : Threaded}

theorem Goes.owed {stamp : Stamp} {s : Scene σ κ} {turns : List Turn}
    (hg : Goes F (.allow stamp) t s turns) (ht : Rested t) :
    ended (callHistory F (.allow stamp) turns t s) ++ (run F (.allowing stamp) t s).1.owed =
      [stamp] := by
  have hrun := hg.isRun ht.idle
  have hclear := ht.clear
  have hstart := starting_conserves.run ht.coherent hrun
  have hupdate := updating_conserves.run ht.coherent hrun
  rw [hclear.starting, List.nil_append] at hstart
  rw [hclear.updating, List.nil_append] at hupdate
  have haccepts : accepted (callHistory F (.allow stamp) turns t s) = [stamp] := hg.accepts
  calc ended (callHistory F (.allow stamp) turns t s) ++ (run F (.allowing stamp) t s).1.owed
      = (ended (callHistory F (.allow stamp) turns t s) ++
          updating.held (run F (.allowing stamp) t s).1) ++
          starting.held (run F (.allowing stamp) t s).1 := (List.append_assoc ..).symm
    _ = begun (callHistory F (.allow stamp) turns t s) ++
          starting.held (run F (.allowing stamp) t s).1 :=
        congrArg (· ++ starting.held (run F (.allowing stamp) t s).1) hupdate.symm
    _ = [stamp] := hstart.symm.trans haccepts

/-- What is not over when an allow returns is over when the finish does. -/
theorem Rested.splits (ht : Rested t) (stamp : Stamp) (s s' : Scene σ κ) :
    let x := run F (.allowing stamp) t s
    ∃ early, early ++ x.1.owed = [stamp] ∧ x.2.world = early.foldl (updated F) s.world ∧
      (run F .finishing x.1 s').2.world = x.1.owed.foldl (updated F) s'.world := by
  obtain ⟨turns, hg, hp⟩ := ht.allow (F := F) stamp s
  obtain ⟨turns', hg', hy⟩ := hp.finish (F := F) s'
  obtain ⟨hended, -⟩ := ht.served hg hp hg' hy
  have howed := hg.owed ht
  rw [ended, List.flatMap_append] at hended
  have hrest := List.append_cancel_left (hended.trans howed.symm)
  refine ⟨_, howed, hg.follows.world, ?_⟩
  rw [← hrest]
  exact hg'.follows.world

end Update.Threaded

namespace UpdateStrategy

variable {strategy : UpdateStrategy}

def owed : UpdateStrategy → List Stamp
  | synchronous pending => pending.toList
  | threaded t => t.owed

theorem Rested.splits (hs : strategy.Rested) (stamp : Stamp) (s s' : Scene σ κ) :
    let x := strategy.allow F stamp s
    ∃ early, early ++ x.1.owed = [stamp] ∧ x.2.world = early.foldl (updated F) s.world ∧
      (x.1.finish F s').2.world = x.1.owed.foldl (updated F) s'.world := by
  cases strategy with
  | synchronous pending =>
    obtain rfl : pending = none := hs
    exact ⟨[], rfl, rfl, (run_effect .main stamp s').1⟩
  | threaded t => exact Threaded.Rested.splits hs stamp s s'

end UpdateStrategy

end FrameLoop
