import InfraSmells.Proofs.Finding.Order
import InfraSmells.Run

/-!
# Whatever the workers do

A pool comes to its end after a bounded number of moves, and every slot then holds what comes of
its task, however the moves were interleaved (`Pool.Sound.slots_of_stuck`). The result of a run is
therefore a function of the tasks and their outcomes (`exists_result_of_every_schedule`), and
`Result.Summarises` says which: the outcomes put together in the order of the tasks, in which the
workers have no part.
-/

namespace InfraSmells.Run

namespace Pool

variable {α β : Type} {limit : Nat} {tasks : List α} {work : α → β} {p q : Pool β}

/-- What holds of a pool after any moves: tasks that were handed out and are no longer worked on
have their outcomes in their slots. -/
structure Sound (limit : Nat) (tasks : List α) (work : α → β) (p : Pool β) : Prop where
  begun : p.begun ≤ tasks.length
  places : p.places ≤ limit
  slots : p.slots.length = tasks.length
  busy : ∀ i ∈ p.busy, i < p.begun
  written : ∀ i < p.begun, i ∉ p.busy → p.slots[i]? = tasks[i]?.map work

/-- The moves that are left: three for a task that was not handed out, and fewer for one that was.
-/
def movesLeft (count : Nat) (p : Pool β) : Nat :=
  3 * (count - p.begun) + 2 * p.busy.length + p.leaving.length

/-- A pool is sound before anything is done. -/
theorem sound_initial (limit : Nat) (tasks : List α) (work : α → β) (blank : β) :
    (initial tasks.length blank).Sound limit tasks work where
  begun := Nat.zero_le _
  places := Nat.zero_le _
  slots := List.length_replicate
  busy _ hi := nomatch hi
  written _ hi := nomatch hi

/-- All a move can do. -/
theorem move?_cases {m : Move} (h : p.move? limit tasks work m = some q) :
    (m = .begin ∧ p.begun < tasks.length ∧ p.places < limit ∧
      q = { p with begun := p.begun + 1, busy := p.begun :: p.busy }) ∨
    (∃ i t, m = .write i ∧ i ∈ p.busy ∧ tasks[i]? = some t ∧
      q = { p with
        busy := p.busy.erase i
        leaving := i :: p.leaving
        slots := p.slots.set i (work t) }) ∨
    (∃ i, m = .leave i ∧ i ∈ p.leaving ∧ q = { p with leaving := p.leaving.erase i }) := by
  cases m with
  | begin =>
    obtain ⟨⟨hbegun, hplaces⟩, h⟩ := Option.ite_none_right_eq_some.1 h
    cases h
    exact .inl ⟨rfl, hbegun, hplaces, rfl⟩
  | write i =>
    obtain ⟨hi, h⟩ := Option.ite_none_right_eq_some.1 h
    obtain ⟨t, ht, rfl⟩ := Option.map_eq_some_iff.1 h
    exact .inr (.inl ⟨i, t, rfl, hi, ht, rfl⟩)
  | leave i =>
    obtain ⟨hi, h⟩ := Option.ite_none_right_eq_some.1 h
    cases h
    exact .inr (.inr ⟨i, rfl, hi, rfl⟩)

/-- A move leaves a pool sound, with one move less to make. -/
theorem Sound.move {m : Move} (hp : p.Sound limit tasks work)
    (h : p.move? limit tasks work m = some q) :
    q.Sound limit tasks work ∧ q.movesLeft tasks.length + 1 = p.movesLeft tasks.length := by
  have hplaces := hp.places
  unfold Pool.places at hplaces
  unfold movesLeft
  rcases move?_cases h with ⟨-, hbegun, hroom, rfl⟩ | ⟨i, t, -, hi, ht, rfl⟩ | ⟨i, -, hi, rfl⟩
  · refine ⟨⟨hbegun, ?_, hp.slots, ?_, ?_⟩, ?_⟩
    · simp only [Pool.places, List.length_cons] at hroom ⊢
      omega
    · intro i hi
      rcases List.mem_cons.1 hi with rfl | hi
      · exact Nat.lt_succ_self _
      · exact Nat.lt_succ_of_lt (hp.busy i hi)
    · intro i hi hbusy
      have ⟨hne, hbusy⟩ := not_or.1 (mt List.mem_cons.2 hbusy)
      exact hp.written i (Nat.lt_of_le_of_ne (Nat.le_of_lt_succ hi) hne) hbusy
    · simp only [List.length_cons]
      omega
  · have hlength := List.length_erase_of_mem hi
    have hpos := List.length_pos_of_mem hi
    refine ⟨⟨hp.begun, ?_, ?_, ?_, ?_⟩, ?_⟩
    · simp only [Pool.places, List.length_cons]
      omega
    · rw [List.length_set]
      exact hp.slots
    · exact fun j hj => hp.busy j (List.mem_of_mem_erase hj)
    · intro j hj hbusy
      by_cases hij : i = j
      · -- The slot of the task itself has just been written.
        subst hij
        have hslot : i < p.slots.length := by
          rw [hp.slots]
          exact Nat.lt_of_lt_of_le hj hp.begun
        rw [List.getElem?_set_self hslot, ht]
        rfl
      · rw [List.getElem?_set_ne hij]
        exact hp.written j hj fun hmem => hbusy ((List.mem_erase_of_ne (Ne.symm hij)).2 hmem)
    · simp only [List.length_cons]
      omega
  · have hlength := List.length_erase_of_mem hi
    have hpos := List.length_pos_of_mem hi
    refine ⟨⟨hp.begun, ?_, hp.slots, hp.busy, hp.written⟩, ?_⟩
    · simp only [Pool.places]
      omega
    · simp only
      omega

/-- Moves leave a pool sound, and every one of them is one less to make. -/
theorem Sound.play {moves : List Move} (hp : p.Sound limit tasks work)
    (h : p.play? limit tasks work moves = some q) :
    q.Sound limit tasks work ∧
      q.movesLeft tasks.length + moves.length = p.movesLeft tasks.length := by
  induction moves generalizing p with
  | nil =>
    cases h
    exact ⟨hp, rfl⟩
  | cons m ms ih =>
    obtain ⟨r, hmove, hplay⟩ := Option.bind_eq_some_iff.1 h
    obtain ⟨hr, hone⟩ := hp.move hmove
    obtain ⟨hq, hrest⟩ := ih hr hplay
    refine ⟨hq, ?_⟩
    rw [List.length_cons]
    omega

/-- A pool in which no move can be made has come to its end: all tasks were handed out and all
slots are written. -/
theorem Sound.slots_of_stuck (hp : p.Sound limit tasks work) (hlimit : tasks ≠ [] → 0 < limit)
    (hstuck : ∀ m, p.move? limit tasks work m = none) : p.slots = tasks.map work := by
  have hbusy : p.busy = [] := by
    refine List.eq_nil_iff_forall_not_mem.2 fun i hi => ?_
    have hlt : i < tasks.length := Nat.lt_of_lt_of_le (hp.busy i hi) hp.begun
    have := hstuck (.write i)
    simp [move?, hi, List.getElem?_eq_getElem hlt] at this
  have hleaving : p.leaving = [] := by
    refine List.eq_nil_iff_forall_not_mem.2 fun i hi => ?_
    have := hstuck (.leave i)
    simp [move?, hi] at this
  have hbegun : p.begun = tasks.length := by
    refine Nat.le_antisymm hp.begun (Nat.le_of_not_lt fun hlt => ?_)
    have hroom := hlimit (List.ne_nil_of_length_pos (Nat.zero_lt_of_lt hlt))
    have := hstuck .begin
    simp [move?, Pool.places, hbusy, hleaving, hlt, hroom] at this
  refine List.ext_getElem? fun i => ?_
  by_cases hi : i < tasks.length
  · rw [List.getElem?_map]
    exact hp.written i (hbegun ▸ hi) (hbusy ▸ List.not_mem_nil)
  · have hle : tasks.length ≤ i := Nat.le_of_not_lt hi
    rw [List.getElem?_eq_none (hp.slots ▸ hle), List.getElem?_eq_none (by simpa using hle)]

end Pool

/-- There is room in the pool of a run that has tasks. -/
theorem workers_pos {jobs : Int} {processors count : Nat} (hp : 0 < processors) (hc : 0 < count) :
    0 < workers jobs processors count := by
  unfold workers
  split <;> omega

/-- Does an outcome contribute findings, possibly none? -/
def Outcome.contributes : Outcome → Bool
  | .found _ | .nothing => true
  | .failed _ | .skipped => false

/-- The result lists every task, and each in one way only: with its failure, as skipped or by its
findings. Of findings with the same key the first in the order of the tasks is kept. -/
structure Result.Summarises (tasks : List Task) (work : Task → Outcome) (r : Result) : Prop where
  files : r.files = tasks.map (·.path)
  errors : r.errors = tasks.filterMap fun t => (work t).error?.map fun e => (t.path, e)
  skipped : r.skipped = (tasks.filter fun t => work t == .skipped).map (·.path)
  once : ∀ t ∈ tasks,
    [(work t).error?.isSome, work t == .skipped, (work t).contributes].count true = 1
  increasing : r.findings.Pairwise fun a b => Finding.order a b = .lt
  first : ∀ f, f ∈ r.findings ↔
    ((tasks.filter fun t => (work t).contributes).flatMap fun t => (work t).findings).find?
      (fun g => g.key = f.key) = some f
  reported : ∀ f ∈ r.findings, ∃ t ∈ tasks, ∃ found, work t = .found found ∧ f ∈ found

/-- Only outcomes that contribute have findings. -/
theorem flatMap_findings (work : Task → Outcome) : ∀ tasks : List Task,
    (tasks.filter fun t => (work t).contributes).flatMap (fun t => (work t).findings) =
      tasks.flatMap fun t => (work t).findings
  | [] => rfl
  | t :: ts => by
    rw [List.filter_cons, List.flatMap_cons, ← flatMap_findings work ts]
    cases hw : work t <;> simp [Outcome.contributes, Outcome.findings, hw]

/-- What is merged from all tasks summarises them. -/
theorem merge_summarises (tasks : List Task) (work : Task → Outcome) :
    (merge (tasks.map fun t => (t, work t))).Summarises tasks work := by
  have hfirst (f : Finding) : f ∈ (merge (tasks.map fun t => (t, work t))).findings ↔
      (tasks.flatMap fun t => (work t).findings).find? (fun g => g.key = f.key) = some f := by
    simp only [merge, List.flatMap_map, (Finding.sort_perm _).mem_iff, Finding.mem_dedup_iff]
  constructor
  case files => simp [merge]
  case errors => simp [merge, List.filterMap_map, Function.comp_def]
  case skipped => simp [merge, List.filter_map, Function.comp_def]
  case once =>
    intro t _
    cases work t <;> simp [Outcome.error?, Outcome.contributes]
  case increasing => exact Finding.sort_strict (Finding.dedupFrom_pairwise _ [])
  case first =>
    intro f
    rw [flatMap_findings]
    exact hfirst f
  case reported =>
    intro f hf
    obtain ⟨t, ht, hmem⟩ := List.mem_flatMap.1 (List.mem_of_find?_eq_some ((hfirst f).1 hf))
    refine ⟨t, ht, ?_⟩
    cases hw : work t <;> simp_all [Outcome.findings]

/-- A run of the tasks one after the other merges their outcomes. -/
theorem run_eq_merge {fs : FileSystem} {s : Settings} {roots : List String} {ts : List Task}
    {work : Task → Outcome} (hts : tasks fs s roots = .ok ts)
    (hwork : ∀ t ∈ ts, outcome fs s t = some (work t)) :
    run fs s roots = .ok (merge (ts.map fun t => (t, work t))) := by
  have hmap : ts.mapM (outcome fs s) = some (ts.map work) := by
    clear hts
    induction ts with
    | nil => rfl
    | cons t ts ih =>
      rw [List.mapM_cons, hwork t (.head _), ih fun t' ht => hwork t' (.tail _ ht)]
      rfl
  have hok : (tasks fs s roots).mapError RunError.discovery = .ok ts := by rw [hts]; rfl
  simp only [run, hok, bind, Except.bind, hmap]
  rw [List.map_prod_left_eq_zip]
  rfl

/-- There is one result that a run comes to, after a bounded number of moves, however many workers
there are and in whichever order they come to do their work; it summarises the tasks. It is the
result of going through the tasks one after the other, too. -/
theorem exists_result_of_every_schedule (ts : List Task) (work : Task → Outcome) :
    ∃ r : Result, r.Summarises ts work ∧
      (∀ (jobs : Int) (processors : Nat), 0 < processors →
        ∀ (moves : List Move) (p : Pool Outcome),
          (Pool.initial ts.length .nothing).play?
            (workers jobs processors ts.length) ts work moves = some p →
          moves.length ≤ 3 * ts.length ∧
          ((∀ m, p.move? (workers jobs processors ts.length) ts work m = none) →
            merge (ts.zip p.slots) = r)) ∧
      ∀ (fs : FileSystem) (s : Settings) (roots : List String),
        tasks fs s roots = .ok ts → (∀ t ∈ ts, outcome fs s t = some (work t)) →
        run fs s roots = .ok r := by
  refine ⟨_, merge_summarises ts work, ?_, fun fs s roots => run_eq_merge⟩
  intro jobs processors hprocessors moves p hplay
  obtain ⟨hp, hmoves⟩ := (Pool.sound_initial _ ts work .nothing).play hplay
  refine ⟨?_, fun hstuck => ?_⟩
  · have hall : (Pool.initial ts.length Outcome.nothing).movesLeft ts.length = 3 * ts.length := rfl
    omega
  · have hlimit (hne : ts ≠ []) : 0 < workers jobs processors ts.length :=
      workers_pos hprocessors (List.length_pos_iff.2 hne)
    rw [hp.slots_of_stuck hlimit hstuck, List.map_prod_left_eq_zip]

/-- Two tasks with findings of one key, and the worker of the second comes first: the finding of
the first task is kept all the same. -/
theorem exists_result_of_every_schedule_crossed :
    let ts : List Task := [⟨"a", false⟩, ⟨"b", false⟩]
    let work (t : Task) : Outcome := .found [⟨"code", "x", 1, t.path, ""⟩]
    ∃ (p : Pool Outcome) (r : Result),
      (Pool.initial 2 .nothing).play? (workers 2 1 2) ts work
        [.begin, .begin, .write 1, .leave 1, .write 0, .leave 0] = some p ∧
      r.Summarises ts work ∧ merge (ts.zip p.slots) = r ∧
      r.findings = [⟨"code", "x", 1, "a", ""⟩] := by
  intro ts work
  obtain ⟨r, hr, hall, -⟩ := exists_result_of_every_schedule ts work
  have hplay : (Pool.initial 2 .nothing).play? (workers 2 1 2) ts work
      [.begin, .begin, .write 1, .leave 1, .write 0, .leave 0] =
        some ⟨2, [], [], ts.map work⟩ := by decide
  have hmerge := (hall 2 1 (by decide) _ _ hplay).2 fun m => by cases m <;> rfl
  refine ⟨_, r, hplay, hr, hmerge, ?_⟩
  rw [← hmerge]
  decide +kernel

end InfraSmells.Run
