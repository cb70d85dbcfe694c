import FrameLoop.Proofs.Stores
import FrameLoop.Proofs.Strategy

/-! What a pair of an allow and a finish does, with a worker or without: one update of the world,
and its timings under the keys of the frame. -/

namespace FrameLoop

variable {σ κ : Type} [StatsSink κ] {F : Facades σ κ}

namespace Update

namespace Threaded

variable {s s' : Scene σ κ} {es : List Event} {t : Threaded}

theorem Follows.stores (h : Follows F s es s') :
    ∃ stores, s'.sink = storeAll s.sink stores ∧ stores.map storeKey = written es := by
  refine ⟨es.flatMap Event.stores, h.sink, ?_⟩
  rw [written, List.map_flatMap]
  congr 1
  funext e
  cases e <;> rfl

theorem Follows.collects (hk : Steady κ) (h : Follows F s es s') (category : String) :
    StatsSink.collects s'.sink category = StatsSink.collects s.sink category := by
  obtain ⟨stores, hs, -⟩ := h.stores
  rw [hs, hk.collects_storeAll]

theorem due_events (t : Threaded) (s : Scene σ κ) (next : Turn) :
    due (events t s next) = (closed (events t s next)).flatMap fun stamp =>
      Phase.lua.receipts (StatsSink.collects s.sink engineStats) stamp.number := by
  rcases next with (_ | _) | _
  · cases hm : t.main <;> simp only [events, mainEvents, hm] <;> (try split) <;> rfl
  · simp only [events, workerEvents]
    split
    · rfl
    · rfl
    · cases StatsSink.collects s.sink engineStats <;> rfl
    · rfl
    · rfl
  · rfl

/-- The keys that are due are those of the updates whose timing closed. -/
theorem due_of_take (hk : Steady κ) (turns : List Turn) (t : Threaded) (s : Scene σ κ) :
    due (history F turns t s) = (closed (history F turns t s)).flatMap fun stamp =>
      Phase.lua.receipts (StatsSink.collects s.sink engineStats) stamp.number := by
  induction turns generalizing t s with
  | nil => rfl
  | cons next rest ih =>
    simp only [history]
    cases hn : turn F t s next with
    | none => exact ih t s
    | some y =>
      have hevents := due_events t s next
      have hrest := ih y.1 y.2
      rw [(follows_of_turn hn).collects hk engineStats] at hrest
      simp only [due, closed, List.flatMap_append] at hevents hrest ⊢
      rw [hevents, hrest]

namespace Goes

variable {r : Request} {turns : List Turn}

theorem follows (hg : Goes F r t s turns) :
    Follows F s (callHistory F r turns t s) (run F r.point t s).2 := by
  have hf := follows_of_take F turns { t with main := r.point }
    { s with schedule := s.schedule.next.2 }
  rw [hg.run_eq]
  exact ⟨hf.world, hf.sink, hf.log⟩

end Goes

theorem due_of_call (hk : Steady κ) (r : Request) (turns : List Turn) (t : Threaded)
    (s : Scene σ κ) :
    due (callHistory F r turns t s) = (closed (callHistory F r turns t s)).flatMap fun stamp =>
      Phase.lua.receipts (StatsSink.collects s.sink engineStats) stamp.number :=
  due_of_take hk turns _ _

/-- The worker stores the timings of the update that was allowed. -/
theorem Rested.stores (ht : Rested t) (hk : Steady κ) (stamp : Stamp) (s s' : Scene σ κ)
    (hsink : s'.sink = (run F (.allowing stamp) t s).2.sink) :
    let y := run F .finishing (run F (.allowing stamp) t s).1 s'
    Rested y.1 ∧ ∃ stores, y.2.sink = storeAll s.sink stores ∧
      stores.map storeKey =
        Phase.lua.receipts (StatsSink.collects s.sink engineStats) stamp.number := by
  obtain ⟨turns, hg, hp⟩ := ht.allow (F := F) stamp s
  obtain ⟨turns', hg', hy⟩ := hp.finish (F := F) s'
  obtain ⟨-, hclosed, hwritten⟩ := ht.served hg hp hg' hy
  obtain ⟨stores, hs, hkeys⟩ := hg.follows.stores
  obtain ⟨stores', hs', hkeys'⟩ := hg'.follows.stores
  refine ⟨hy, stores ++ stores', ?_, ?_⟩
  · rw [storeAll_append, ← hs]
    exact hs'.trans (congrArg (storeAll · stores') hsink)
  · have hcollects : StatsSink.collects s'.sink engineStats =
        StatsSink.collects s.sink engineStats := by
      rw [hsink]
      exact hg.follows.collects hk engineStats
    have hdue := due_of_call (F := F) hk (.allow stamp) turns t s
    have hdue' := due_of_call (F := F) hk .finish turns' (run F (.allowing stamp) t s).1 s'
    rw [hcollects] at hdue'
    rw [List.map_append, hkeys, hkeys', ← List.flatMap_append]
    refine hwritten.trans ?_
    simp only [due, closed] at hdue hdue' hclosed ⊢
    rw [List.flatMap_append, hdue, hdue', ← List.flatMap_append, ← List.flatMap_append, hclosed,
      List.flatMap_singleton]

theorem Rested.updates (ht : Rested t) (stamp : Stamp) (s : Scene σ κ) :
    (run F .finishing (run F (.allowing stamp) t s).1 (run F (.allowing stamp) t s).2).2.world =
      updated F s.world stamp := by
  obtain ⟨turns, hg, hp⟩ := ht.allow (F := F) stamp s
  obtain ⟨turns', hg', hy⟩ := hp.finish (F := F) (run F (.allowing stamp) t s).2
  obtain ⟨hended, -⟩ := ht.served hg hp hg' hy
  have hall := (hg.follows.trans hg'.follows).world
  rw [hended] at hall
  exact hall

end Threaded

/-- An update on the main thread is one update of the world, and stores its timings. -/
theorem run_effect (thread : Thread) (stamp : Stamp) (s : Scene σ κ) :
    (Update.run F thread stamp s).2.world = updated F s.world stamp ∧
      ∃ stores, (Update.run F thread stamp s).2.sink = storeAll s.sink stores ∧
        stores.map storeKey =
          Phase.lua.receipts (StatsSink.collects s.sink engineStats) stamp.number := by
  rw [Update.run, bind_apply, bind_apply, perform_eq]
  refine ⟨?_, ?_⟩
  · rw [Scene.closePhase_world]
    cases thread <;> rfl
  · obtain ⟨stores, hs, hkeys⟩ := Scene.closePhase_stores .lua stamp (Scene.now s).1
      (Scene.append thread ((F.updateScripting stamp s.world).log ++
        (F.updateScripting stamp s.world).answer.report stamp)
        { (Scene.now s).2 with world := (F.updateScripting stamp s.world).world })
    cases thread <;> exact ⟨stores, hs, hkeys⟩

end Update

namespace UpdateStrategy

open Update

/-- With a worker or without, between an allow and the finish after it the sink gets the timings
of the update, under the frame of its stamp, as long as the main thread stores nothing itself. -/
theorem Rested.stores {strategy : UpdateStrategy} (hs : strategy.Rested) (hk : Steady κ)
    (stamp : Stamp) (s s' : Scene σ κ) (hsink : s'.sink = (strategy.allow F stamp s).2.sink) :
    ((strategy.allow F stamp s).1.finish F s').1.Rested ∧
      ∃ stores, ((strategy.allow F stamp s).1.finish F s').2.sink = storeAll s.sink stores ∧
        stores.map storeKey =
          Phase.lua.receipts (StatsSink.collects s.sink engineStats) stamp.number := by
  cases strategy with
  | synchronous pending =>
    obtain rfl : pending = none := hs
    obtain ⟨-, stores, hstores, hkeys⟩ := run_effect (F := F) .main stamp s'
    have hsame : s'.sink = s.sink := hsink
    rw [hsame] at hstores hkeys
    exact ⟨rfl, stores, hstores, hkeys⟩
  | threaded t => exact Threaded.Rested.stores hs hk stamp s s' hsink

/-- With a worker or without, an allow and the finish after it make one update of the world. -/
theorem Rested.updates {strategy : UpdateStrategy} (hs : strategy.Rested) (stamp : Stamp)
    (s : Scene σ κ) :
    ((strategy.allow F stamp s).1.finish F (strategy.allow F stamp s).2).2.world =
      updated F s.world stamp := by
  cases strategy with
  | synchronous pending =>
    obtain rfl : pending = none := hs
    exact (run_effect .main stamp s).1
  | threaded t => exact Threaded.Rested.updates hs stamp s

theorem Rested.joins {strategy : UpdateStrategy} (hs : strategy.Rested) (s : Scene σ κ) :
    (strategy.join F s).1.Joined ∧ (strategy.join F s).2.world = s.world ∧
      (strategy.join F s).2.sink = s.sink := by
  cases strategy with
  | synchronous pending => exact ⟨hs, rfl, rfl⟩
  | threaded t =>
    obtain ⟨turns, hg, hexited, he, hw⟩ := Threaded.Rested.join (F := F) hs s
    obtain ⟨stores, hstores, hkeys⟩ := hg.follows.stores
    rw [hw, List.map_eq_nil_iff] at hkeys
    rw [hkeys] at hstores
    have hworld := hg.follows.world
    rw [he] at hworld
    exact ⟨hexited, hworld, hstores⟩

/-- Makes the pairs of calls for the frames with these stamps, then joins; returns the scenes after
the finishes. -/
def serve (F : Facades σ κ) : List Stamp → UpdateStrategy → Act σ κ (UpdateStrategy × List (Scene σ κ))
  | [], strategy => do return (← join F strategy, [])
  | stamp :: rest, strategy => do
    let strategy ← finish F (← allow F stamp strategy)
    let s ← get
    let (strategy, scenes) ← serve F rest strategy
    return (strategy, s :: scenes)

end UpdateStrategy

/-- A sink that keeps the keys of all that is stored in it. -/
structure Receipts (κ : Type) where
  sink : κ
  keys : List (Nat × String)

instance : StatsSink (Receipts κ) where
  collects k category := StatsSink.collects k.sink category
  set k frame name value := ⟨StatsSink.set k.sink frame name value, k.keys ++ [(frame, name)]⟩

theorem Receipts.steady (hk : Steady κ) : Steady (Receipts κ) :=
  ⟨fun _ _ _ _ _ => hk.collects_set ..⟩

theorem Receipts.keys_storeAll (k : Receipts κ) (stores : List (Nat × String × Double)) :
    (storeAll k stores).keys = k.keys ++ stores.map storeKey := by
  induction stores generalizing k with
  | nil => simp [storeAll]
  | cons a stores ih =>
    refine (ih _).trans ?_
    simp [StatsSink.set, storeKey]

namespace UpdateStrategy

open Update

/-- The worlds and the keys that updates for some frames lead to, one after the other. -/
def trail (F : Facades σ (Receipts κ)) (collecting : Bool) :
    List Stamp → σ × List (Nat × String) → List (σ × List (Nat × String))
  | [], _ => []
  | stamp :: rest, (w, keys) =>
    let next := (updated F w stamp, keys ++ Phase.lua.receipts collecting stamp.number)
    next :: trail F collecting rest next

/-- With a worker or without, whatever it does when: the scripting engine is updated once for
every stamp, in their order, the update of a stamp is over when its finish returns, and its timings
have been stored under the keys of its frame. -/
theorem serve_eq {F : Facades σ (Receipts κ)} (hk : Steady κ) {strategy : UpdateStrategy}
    (hs : strategy.Rested) (stamps : List Stamp) (s : Scene σ (Receipts κ)) :
    ((serve F stamps strategy s).1.2.map fun s => (s.world, s.sink.keys)) =
        trail F (StatsSink.collects s.sink engineStats) stamps (s.world, s.sink.keys) ∧
      (serve F stamps strategy s).1.1.Joined ∧
      (serve F stamps strategy s).2.world = stamps.foldl (updated F) s.world ∧
      (serve F stamps strategy s).2.sink.keys = s.sink.keys ++ stamps.flatMap fun stamp =>
        Phase.lua.receipts (StatsSink.collects s.sink engineStats) stamp.number := by
  induction stamps generalizing strategy s with
  | nil =>
    obtain ⟨hj, hw, hsink⟩ := hs.joins (F := F) s
    exact ⟨rfl, hj, hw, (congrArg Receipts.keys hsink).trans (List.append_nil _).symm⟩
  | cons stamp stamps ih =>
    let s' := ((strategy.allow F stamp s).1.finish F (strategy.allow F stamp s).2).2
    have hw : s'.world = updated F s.world stamp := hs.updates stamp s
    obtain ⟨hrested, stores, hstores, hkeys⟩ :=
      hs.stores (F := F) (Receipts.steady hk) stamp s (strategy.allow F stamp s).2 rfl
    have hsink : s'.sink = storeAll s.sink stores := hstores
    have hcollects := (Receipts.steady hk).collects_storeAll s.sink stores engineStats
    have hall := congrArg Receipts.keys hsink
    rw [Receipts.keys_storeAll, hkeys] at hall
    obtain ⟨htrail, hj, hrest, hkept⟩ := ih hrested s'
    rw [hsink, hcollects, ← hsink, hw, hall] at htrail
    rw [hsink, hcollects, ← hsink, hall] at hkept
    refine ⟨?_, hj, ?_, ?_⟩
    · rw [trail, ← htrail, ← hw, ← hall]
      rfl
    · rw [List.foldl_cons, ← hw]
      exact hrest
    · rw [List.flatMap_cons, ← List.append_assoc]
      exact hkept

end UpdateStrategy

end FrameLoop
