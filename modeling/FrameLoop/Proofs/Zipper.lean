import FrameLoop.LocalScripts

/-! A registry of local scripts is a zipper: the cursor of a drain parts the entries into those that
it has visited and those that are pending, and no operation brings an entry from one side to the
other but the drain itself. -/

namespace FrameLoop

namespace LocalScripts

/-- The loop of a removal in place. Every match moves the rest of the entries to the left, and the
cursor with them if it stands behind the match. -/
def removeFrom (entity : Nat) (r : LocalScripts) (index removed : Nat) : Nat × LocalScripts :=
  if h : index < r.entries.length then
    if r.entries[index].entity == entity then
      removeFrom entity
        { entries := r.entries.eraseIdx index
          cursor := r.cursor.map fun c => if index < c then c - 1 else c }
        index (removed + 1)
    else removeFrom entity r (index + 1) removed
  else (removed, r)
termination_by r.entries.length - index
decreasing_by
  · simp only [List.length_eraseIdx_of_lt h]
    omega
  · omega

def removeInPlace (r : LocalScripts) (entity : Nat) : Nat × LocalScripts := r.removeFrom entity 0 0

theorem countOf_cons (entity : Nat) (e : LocalScript) (entries : List LocalScript) :
    countOf entity (e :: entries) =
      countOf entity entries + if e.entity == entity then 1 else 0 := by
  simp [countOf, List.countP_cons]

theorem countOf_add_length (entity : Nat) (entries : List LocalScript) :
    countOf entity entries + (entries.filter (·.entity != entity)).length = entries.length := by
  induction entries with
  | nil => rfl
  | cons e entries ih => by_cases he : e.entity = entity <;> simp [countOf_cons, he] <;> omega

section Loop

variable {entity : Nat} {e : LocalScript} (passed rest : List LocalScript) (cursor : Option Nat)
  (removed : Nat)

theorem removeFrom_match (he : e.entity = entity) :
    removeFrom entity ⟨passed ++ e :: rest, cursor⟩ passed.length removed =
      removeFrom entity
        ⟨passed ++ rest, cursor.map fun c => if passed.length < c then c - 1 else c⟩
        passed.length (removed + 1) := by
  rw [removeFrom]
  simp [he, List.eraseIdx_append_of_length_le]

theorem removeFrom_pass (he : e.entity ≠ entity) :
    removeFrom entity ⟨passed ++ e :: rest, cursor⟩ passed.length removed =
      removeFrom entity ⟨(passed ++ [e]) ++ rest, cursor⟩ (passed ++ [e]).length removed := by
  rw [removeFrom]
  simp [he]

theorem take_sub_cons (c passed : Nat) :
    (e :: rest).take (c - passed) = if passed < c then e :: rest.take (c - (passed + 1)) else [] := by
  by_cases hc : passed < c
  · have hsucc : c - passed = c - (passed + 1) + 1 := by omega
    simp [hc, hsucc]
  · simp [hc, Nat.sub_eq_zero_of_le (Nat.le_of_not_lt hc)]

end Loop

/-- What the loop has passed stays; the cursor has still to move back by the matches from there to
where it stands. -/
theorem removeFrom_eq (entity : Nat) (passed rest : List LocalScript) (cursor : Option Nat)
    (removed : Nat) :
    removeFrom entity ⟨passed ++ rest, cursor⟩ passed.length removed =
      (removed + countOf entity rest,
        { entries := passed ++ rest.filter (·.entity != entity)
          cursor := cursor.map fun c => c - countOf entity (rest.take (c - passed.length)) }) := by
  induction rest generalizing passed cursor removed with
  | nil => rw [removeFrom]; simp [countOf]
  | cons e rest ih =>
    by_cases he : e.entity = entity
    · have hcursor (c : Nat) :
          (if passed.length < c then c - 1 else c) -
              countOf entity (rest.take ((if passed.length < c then c - 1 else c) - passed.length)) =
            c - countOf entity ((e :: rest).take (c - passed.length)) := by
        rw [take_sub_cons]
        by_cases hc : passed.length < c
        · have hnext : c - 1 - passed.length = c - (passed.length + 1) := by omega
          simp only [hc, if_true, hnext, countOf_cons, he, beq_self_eq_true]
          omega
        · simp [hc, Nat.sub_eq_zero_of_le (Nat.le_of_not_lt hc)]
      rw [removeFrom_match passed rest cursor removed he, ih]
      simp only [Option.map_map, Function.comp_def, hcursor]
      simp [he, countOf_cons]
      omega
    · have hcursor (c : Nat) : countOf entity ((e :: rest).take (c - passed.length)) =
          countOf entity (rest.take (c - (passed.length + 1))) := by
        rw [take_sub_cons]
        by_cases hc : passed.length < c
        · simp [hc, countOf_cons, he]
        · have hzero : c - (passed.length + 1) = 0 := by omega
          simp [hc, hzero]
      rw [removeFrom_pass passed rest cursor removed he, ih]
      simp [he, countOf_cons, hcursor]

theorem removeInPlace_eq (r : LocalScripts) (entity : Nat) :
    r.removeInPlace entity = r.remove entity := by
  have hloop := removeFrom_eq entity [] r.entries r.cursor 0
  simpa [removeInPlace, remove] using hloop

end LocalScripts

/-- A registry as it is to be understood: entries at rest, or a drain between those it has visited and
those it has not. -/
inductive Zipper
  | resting (entries : List LocalScript)
  | draining (visited pending : List LocalScript)
  deriving DecidableEq, Repr

def LocalScripts.zipper (r : LocalScripts) : Zipper :=
  match r.cursor with
  | none => .resting r.entries
  | some c => .draining (r.entries.take c) (r.entries.drop c)

/-- What can be asked of a registry. -/
inductive Use
  | add (script : String) (entity : Nat)
  | remove (entity : Nat)
  | start
  | next
  deriving DecidableEq, Repr

/-- What it answers. -/
inductive Reply
  | done
  | removed (count : Nat)
  | entry (found : Option LocalScript)
  deriving DecidableEq, Repr

def LocalScripts.use (r : LocalScripts) : Use → Reply × LocalScripts
  | .add script entity => (.done, r.add script entity)
  | .remove entity => ((r.remove entity).map .removed id)
  | .start => (.done, r.start)
  | .next => r.next.map .entry id

namespace Zipper

def add (entry : LocalScript) : Zipper → Zipper
  | resting entries => resting (entries ++ [entry])
  | draining visited pending => draining visited (pending ++ [entry])

/-- Takes the entries of an entity out of both parts, and counts them. -/
def remove (entity : Nat) : Zipper → Nat × Zipper
  | resting entries =>
    (LocalScripts.countOf entity entries, resting (entries.filter (·.entity != entity)))
  | draining visited pending =>
    (LocalScripts.countOf entity visited + LocalScripts.countOf entity pending,
      draining (visited.filter (·.entity != entity)) (pending.filter (·.entity != entity)))

def start : Zipper → Zipper
  | resting entries => draining [] entries
  | draining visited pending => draining [] (visited ++ pending)

/-- Visits the first pending entry; without one the drain is over. -/
def next : Zipper → Option LocalScript × Zipper
  | resting entries => (none, resting entries)
  | draining visited [] => (none, resting visited)
  | draining visited (entry :: pending) => (some entry, draining (visited ++ [entry]) pending)

def use (z : Zipper) : Use → Reply × Zipper
  | .add script entity => (.done, z.add ⟨script, entity⟩)
  | .remove entity => (z.remove entity).map .removed id
  | .start => (.done, z.start)
  | .next => z.next.map .entry id

end Zipper

/-- A registry and the zipper that it is: the cursor stands behind what has been visited. -/
inductive LocalScripts.Shows : LocalScripts → Zipper → Prop
  | resting (entries : List LocalScript) : Shows ⟨entries, none⟩ (.resting entries)
  | draining (visited pending : List LocalScript) :
    Shows ⟨visited ++ pending, some visited.length⟩ (.draining visited pending)

namespace LocalScripts.Shows

variable {r : LocalScripts} {z : Zipper}

theorem zipper_eq (h : r.Shows z) : r.zipper = z := by
  cases h <;> simp [zipper]

theorem cursor_le (h : r.Shows z) {c : Nat} (hc : r.cursor = some c) : c ≤ r.entries.length := by
  cases h with
  | resting => cases hc
  | draining visited pending =>
    cases hc
    simp

theorem remove (h : r.Shows z) (entity : Nat) :
    (r.remove entity).1 = (z.remove entity).1 ∧ (r.remove entity).2.Shows (z.remove entity).2 := by
  cases h with
  | resting entries => exact ⟨rfl, .resting _⟩
  | draining visited pending =>
    have hcursor : visited.length - countOf entity visited =
        (visited.filter (·.entity != entity)).length := by
      have := countOf_add_length entity visited
      omega
    refine ⟨List.countP_append, ?_⟩
    simpa [LocalScripts.remove, Zipper.remove, hcursor] using Shows.draining _ _

theorem next (h : r.Shows z) : r.next.1 = z.next.1 ∧ r.next.2.Shows z.next.2 := by
  cases h with
  | resting entries => exact ⟨rfl, .resting entries⟩
  | draining visited pending =>
    cases pending with
    | nil => simpa [LocalScripts.next, Zipper.next] using Shows.resting visited
    | cons e pending =>
      simpa [LocalScripts.next, Zipper.next] using Shows.draining (visited ++ [e]) pending

/-- Whatever is asked of both, they answer the same and stay alike. -/
theorem use (h : r.Shows z) (u : Use) :
    (r.use u).1 = (z.use u).1 ∧ (r.use u).2.Shows (z.use u).2 := by
  cases u with
  | add script entity =>
    cases h with
    | resting entries => exact ⟨rfl, .resting _⟩
    | draining visited pending =>
      refine ⟨rfl, ?_⟩
      simpa [LocalScripts.use, LocalScripts.add, Zipper.use, Zipper.add] using
        Shows.draining visited (pending ++ [⟨script, entity⟩])
  | remove entity => exact ⟨congrArg Reply.removed (h.remove entity).1, (h.remove entity).2⟩
  | start =>
    cases h with
    | resting entries => exact ⟨rfl, .draining [] entries⟩
    | draining visited pending => exact ⟨rfl, .draining [] (visited ++ pending)⟩
  | next => exact ⟨congrArg Reply.entry h.next.1, h.next.2⟩

end LocalScripts.Shows

namespace Registries

/-- What is asked of some registries, which go by their numbers. A clone gets the next number. -/
inductive Order
  | ask (number : Nat) (u : Use)
  | clone (number : Nat)
  deriving DecidableEq, Repr

def usesOf (number : Nat) (orders : List Order) : List Use :=
  orders.filterMap fun
    | .ask k u => if k = number then some u else none
    | .clone _ => none

def repliesOf (number : Nat) (replies : List (Nat × Reply)) : List Reply :=
  (replies.filter (·.1 = number)).map Prod.snd

theorem repliesOf_append (number : Nat) (replies more : List (Nat × Reply)) :
    repliesOf number (replies ++ more) = repliesOf number replies ++ repliesOf number more := by
  simp [repliesOf]

section

variable {ρ : Type} (use : ρ → Use → Reply × ρ)

def obey (all : List ρ) : Order → List (Nat × Reply) × List ρ
  | .ask number u =>
    match all[number]? with
    | some r => ([(number, (use r u).1)], all.set number (use r u).2)
    | none => ([], all)
  | .clone number => ([], all ++ all[number]?.toList)

/-- The replies, each with the number of the registry that gives it, and what becomes of all. -/
def run (all : List ρ) : List Order → List (Nat × Reply) × List ρ
  | [] => ([], all)
  | order :: orders =>
    let (replies, all) := obey use all order
    let (more, all) := run all orders
    (replies ++ more, all)

/-- What becomes of one registry by itself. -/
def alone (r : ρ) : List Use → List Reply × ρ
  | [] => ([], r)
  | u :: us =>
    let (reply, r) := use r u
    let (replies, r) := alone r us
    (reply :: replies, r)

/-- No registry takes notice of what is asked of the others. -/
theorem run_apart {all : List ρ} {number : Nat} {r : ρ} (h : all[number]? = some r)
    (orders : List Order) :
    repliesOf number (run use all orders).1 = (alone use r (usesOf number orders)).1 ∧
      (run use all orders).2[number]? = some (alone use r (usesOf number orders)).2 := by
  induction orders generalizing all r with
  | nil => exact ⟨rfl, h⟩
  | cons order orders ih =>
    have hlt : number < all.length := (List.getElem?_eq_some_iff.mp h).1
    cases order with
    | clone k =>
      have hkept : (all ++ all[k]?.toList)[number]? = some r := by
        rw [List.getElem?_append_left hlt, h]
      simpa [run, obey, usesOf] using ih hkept
    | ask k u =>
      by_cases hk : k = number
      · subst hk
        have hrest := ih (List.getElem?_set_self (a := (use r u).2) hlt)
        simpa [run, obey, usesOf, h, repliesOf, alone] using hrest
      · have hrest : (obey use all (.ask k u)).2[number]? = some r := by
          rw [obey]
          cases all[k]? with
          | none => exact h
          | some r' => rw [List.getElem?_set_ne hk, h]
        have hnone : repliesOf number (obey use all (.ask k u)).1 = [] := by
          rw [obey]
          cases all[k]? <;> simp [repliesOf, hk]
        have huses : usesOf number (.ask k u :: orders) = usesOf number orders := by
          simp [usesOf, hk]
        simpa [run, repliesOf_append, hnone, huses] using ih hrest

end

section Refinement

variable {all : List LocalScripts}

theorem obey_shows (h : ∀ r ∈ all, r.Shows r.zipper) (order : Order) :
    obey Zipper.use (all.map LocalScripts.zipper) order =
        ((obey LocalScripts.use all order).1,
          (obey LocalScripts.use all order).2.map LocalScripts.zipper) ∧
      ∀ r ∈ (obey LocalScripts.use all order).2, r.Shows r.zipper := by
  cases order with
  | ask number u =>
    cases hr : all[number]? with
    | none => simpa [obey, hr] using h
    | some r =>
      obtain ⟨hreply, hshows⟩ := (h r (List.mem_of_getElem? hr)).use u
      have hzipper : (r.use u).2.zipper = (r.zipper.use u).2 := hshows.zipper_eq
      refine ⟨by simp [obey, hr, hreply, hzipper, List.map_set], fun r' hr' => ?_⟩
      simp only [obey, hr] at hr'
      rcases List.mem_or_eq_of_mem_set hr' with hr' | rfl
      · exact h r' hr'
      · rwa [hzipper]
  | clone number =>
    refine ⟨by cases hr : all[number]? <;> simp [obey, hr], fun r hr => ?_⟩
    rcases List.mem_append.mp hr with hr | hr
    · exact h r hr
    · exact h r (List.mem_of_getElem? (Option.mem_toList.mp hr))

/-- Registries are the zippers that they show, whatever is asked of them. -/
theorem run_shows (h : ∀ r ∈ all, r.Shows r.zipper) (orders : List Order) :
    run Zipper.use (all.map LocalScripts.zipper) orders =
        ((run LocalScripts.use all orders).1,
          (run LocalScripts.use all orders).2.map LocalScripts.zipper) ∧
      ∀ r ∈ (run LocalScripts.use all orders).2, r.Shows r.zipper := by
  induction orders generalizing all with
  | nil => exact ⟨rfl, h⟩
  | cons order orders ih =>
    obtain ⟨hobey, hall⟩ := obey_shows h order
    obtain ⟨hrun, hlast⟩ := ih hall
    exact ⟨by simp [run, hobey, hrun], hlast⟩

end Refinement

end Registries

namespace LocalScripts

/-- Only a start begins a drain. -/
theorem alone_resting {r : LocalScripts} (h : r.cursor = none) {us : List Use} (hus : .start ∉ us) :
    (Registries.alone use r us).2.cursor = none ∧
      ∀ e, Reply.entry (some e) ∉ (Registries.alone use r us).1 := by
  induction us generalizing r with
  | nil => exact ⟨h, fun e => List.not_mem_nil⟩
  | cons u us ih =>
    have hresting : (r.use u).2.cursor = none ∧ ∀ e, (r.use u).1 ≠ .entry (some e) := by
      cases u with
      | add script entity => exact ⟨h, fun e => nofun⟩
      | remove entity => exact ⟨congrArg (Option.map _) h, fun e => nofun⟩
      | start => exact absurd List.mem_cons_self hus
      | next => simp [use, next, h]
    obtain ⟨hcursor, hreplies⟩ := ih hresting.1 (fun hmem => hus (List.mem_cons_of_mem _ hmem))
    refine ⟨hcursor, fun e hmem => ?_⟩
    rcases List.mem_cons.mp hmem with heq | hmem
    · exact hresting.2 e heq.symm
    · exact hreplies e hmem

theorem next_ends {r : LocalScripts} (h : r.next.1 = none) : r.next.2.cursor = none := by
  rcases r with ⟨entries, _ | c⟩
  · rfl
  · cases he : entries[c]? with
    | none => simp [next, he]
    | some e => simp [next, he] at h

/-- Whatever is asked of registries and their clones from the start, they are zippers: the cursor
stays within the entries, all replies are those of the zippers, the loop of a removal does what the
zipper does, a drain that is over is begun anew by a start alone, and a clone goes on as its original
would have and apart from it. -/
theorem registries_are_zippers (orders : List Registries.Order) :
    let ran := Registries.run use [empty] orders
    (∀ r ∈ ran.2, ∀ c, r.cursor = some c → c ≤ r.entries.length) ∧
    Registries.run Zipper.use [.resting []] orders = (ran.1, ran.2.map zipper) ∧
    (∀ (r : LocalScripts) entity, r.removeInPlace entity = r.remove entity) ∧
    (∀ r ∈ ran.2, r.next.1 = none → ∀ us, Use.start ∉ us →
      (Registries.alone use r.next.2 us).2.cursor = none ∧
        ∀ e, Reply.entry (some e) ∉ (Registries.alone use r.next.2 us).1) ∧
    (∀ r ∈ ran.2, r.cursor = none → ∀ entity, (r.remove entity).2.cursor = none) ∧
    ∀ original r, ran.2[original]? = some r →
      (Registries.run use ran.2 [.clone original]).2 = ran.2 ++ [r] ∧
      ∀ later, ∀ number ∈ [original, ran.2.length],
        Registries.repliesOf number (Registries.run use (ran.2 ++ [r]) later).1 =
            (Registries.alone use r (Registries.usesOf number later)).1 ∧
          (Registries.run use (ran.2 ++ [r]) later).2[number]? =
            some (Registries.alone use r (Registries.usesOf number later)).2 := by
  intro ran
  have hempty : ∀ r ∈ [empty], r.Shows r.zipper := by
    intro r hr
    rw [List.mem_singleton.mp hr]
    exact .resting []
  obtain ⟨hrun, hshows⟩ := Registries.run_shows hempty orders
  refine ⟨fun r hr c hc => (hshows r hr).cursor_le hc, hrun, removeInPlace_eq,
    fun r _ hnext us hus => alone_resting (next_ends hnext) hus,
    fun r _ hcursor entity => congrArg (Option.map _) hcursor, fun original r hr => ?_⟩
  have hclone : (Registries.run use ran.2 [.clone original]).2 = ran.2 ++ [r] := by
    simp [Registries.run, Registries.obey, hr]
  refine ⟨hclone, fun later number hnumber => Registries.run_apart use ?_ later⟩
  simp only [List.mem_cons, List.not_mem_nil, or_false] at hnumber
  rcases hnumber with rfl | rfl
  · rw [List.getElem?_append_left (List.getElem?_eq_some_iff.mp hr).1, hr]
  · rw [List.getElem?_concat_length]

/-- Two of three scripts are of one entity, and a drain stands behind the first of them. -/
def startedDrain : List Registries.Order :=
  [.ask 0 (.add "lantern" 1), .ask 0 (.add "gate" 2), .ask 0 (.add "bell" 1), .ask 0 .start,
    .ask 0 .next]

theorem registries_are_zippers_clone_in_drain :
    let all := (Registries.run use [empty] startedDrain).2
    let later : List Registries.Order :=
      [.ask 0 (.remove 1), .ask 1 .next, .ask 0 .next, .ask 0 .next, .ask 1 .next]
    let spent := (Registries.run use [empty] (startedDrain ++ [.ask 0 .next, .ask 0 .next])).2
    all.map zipper = [.draining [⟨"lantern", 1⟩] [⟨"gate", 2⟩, ⟨"bell", 1⟩]] ∧
    (∃ r, all[0]? = some r ∧
      Registries.repliesOf 0 (Registries.run use (all ++ [r]) later).1 =
        [.removed 2, .entry (some ⟨"gate", 2⟩), .entry none] ∧
      Registries.repliesOf 1 (Registries.run use (all ++ [r]) later).1 =
        [.entry (some ⟨"gate", 2⟩), .entry (some ⟨"bell", 1⟩)]) ∧
    ∃ r, spent[0]? = some r ∧
      ∀ e, Reply.entry (some e) ∉ (Registries.alone use r.next.2 [.add "moth" 3, .next]).1 := by
  intro all later spent
  obtain ⟨-, hrun, -, -, -, hclone⟩ := registries_are_zippers startedDrain
  obtain ⟨-, -, -, hover, -, -⟩ := registries_are_zippers (startedDrain ++ [.ask 0 .next, .ask 0 .next])
  refine ⟨(congrArg Prod.snd hrun).symm, ⟨_, rfl, ?_, ?_⟩, _, rfl, ?_⟩
  · exact ((hclone 0 _ rfl).2 later 0 (by decide)).1
  · exact ((hclone 0 _ rfl).2 later 1 (by decide)).1
  · exact (hover _ List.mem_cons_self rfl [.add "moth" 3, .next] (by decide)).2

end LocalScripts

end FrameLoop
