import RunLoop.Proofs.Lives
import RunLoop.Proofs.Teardown

/-!
# Where hand-offs run

A callback that is handed to a loop does not carry the loop along: when it runs, it looks for the
loop that is current on its thread. That this is the loop that accepted it follows from the order on
the stacks: entries of a loop are processed above the frame of this loop only, and there is no other
frame on the same stack.

* `Fifo.Run.sublist`: entries are processed in the order in which they were accepted, whatever is
  lost.
* `Machine.HandedOver` and `Machine.Landed` say what becomes of a future that a loop is to start:
  it is queued with its callback, and spawned when the callback is processed.
* `Machine.hand_offs_run_on_their_loop` puts it together.
-/

namespace RunLoop

variable {G : Guest} {l : LoopId}

/-! ## Order -/

/-- Whatever is lost, what was processed and what is queued come in the order in which they were
accepted, each of them once. -/
theorem Fifo.Run.sublist {α : Type} {f f₁ : Fifo α} {σ : List (Fifo.Sign α)}
    (run : Fifo.Run Fifo.Lossy f σ f₁) :
    (σ.filterMap Fifo.Sign.processed? ++ f₁.queue).Sublist
      (f.queue ++ σ.filterMap Fifo.Sign.accepted?) := by
  induction run with
  | here => simp
  | @step σ s f₁ f₂ _ step ih =>
    rw [List.filterMap_append, List.filterMap_append, ← List.append_assoc f.queue]
    cases step with
    | @lose rest q =>
      -- what is dropped is missing in the middle
      have hless : (σ.filterMap Fifo.Sign.processed? ++ q).Sublist
          (σ.filterMap Fifo.Sign.processed? ++ (rest ++ q)) :=
        (List.Sublist.refl _).append (List.sublist_append_right _ _)
      simpa [List.filterMap_cons, Fifo.Sign.processed?, Fifo.Sign.accepted?] using hless.trans ih
    | step step =>
      cases step with
      | accept =>
        simpa [List.filterMap_cons, Fifo.Sign.processed?, Fifo.Sign.accepted?] using
          ih.append (List.Sublist.refl [_])
      | close =>
        have hless := (List.sublist_append_left (σ.filterMap Fifo.Sign.processed?) _).trans ih
        simpa [List.filterMap_cons, Fifo.Sign.processed?, Fifo.Sign.accepted?] using hless
      | build | enter | process | leave =>
        simpa [List.filterMap_cons, Fifo.Sign.processed?, Fifo.Sign.accepted?, Fifo.unbuilt]
          using ih

/-- The future that an entry is to start. -/
def Entry.starts? : Entry G → Option (Future G.Coroutine)
  | call (.start f) => some f
  | _ => none

/-- The futures that loop `l` accepted to start, in order. -/
def broughtTo (l : LoopId) (τ : List (Happening G)) : List (Future G.Coroutine) :=
  (acceptedBy l τ).filterMap Entry.starts?

/-- The futures that were started on loop `l` by processing their callbacks, in order. -/
def startedOn (l : LoopId) (τ : List (Happening G)) : List (Future G.Coroutine) :=
  (processedBy l τ).filterMap Entry.starts?

theorem mem_startedOn {f : Future G.Coroutine} {τ : List (Happening G)} :
    f ∈ startedOn l τ ↔ .processed l (.call (.start f)) ∈ τ := by
  rw [startedOn, List.mem_filterMap, ← mem_processedBy]
  constructor
  · rintro ⟨e, he, hf⟩
    cases e with
    | call c => cases c <;> cases hf; exact he
    | _ => cases hf
  · intro he
    exact ⟨_, he, rfl⟩

namespace Machine

variable {code : G.Code} {m m' : Machine G} {p : List (Machine G)} {τ : List (Happening G)}
  {rest : List (Job G)}

/-- Futures are started in the order in which they were accepted, each of them once; those that are
neither started nor waiting were dropped. -/
theorem Reached.startedOn_sublist (hm : Reached code τ m) (l : LoopId) :
    (startedOn l τ ++ (m.unprocessed l).filterMap Entry.starts?).Sublist (broughtTo l τ) := by
  have h := (hm.fifo l).sublist
  rw [filterMap_accepted?_signs, filterMap_processed?_signs] at h
  have h' := h.filterMap Entry.starts?
  rw [List.filterMap_append] at h'
  simpa [Fifo.unbuilt, startedOn, broughtTo, unprocessed] using h'

/-! ## Where callbacks run -/

/-- Only the turn of a loop processes its entries. -/
theorem turn_of_processed {e : Entry G} (h : .processed l e ∈ m.happenings) :
    ∃ k f batch rest a, m.jobs = .turn l k f (e :: batch) :: rest ∧ m.mode = .going a := by
  have handed : ∀ l' e', .processed l e ∉ m.handed l' e' := by
    intro l' e'
    unfold Machine.handed
    split <;> simp
  have cell : ∀ c k, .processed l e ∉ m.cellRead c k := by
    intro c k
    unfold Machine.cellRead
    split <;> simp
  have join : ∀ j k, .processed l e ∉ m.joinRead j k := by
    intro j k
    unfold Machine.joinRead
    split <;> simp
  unfold happenings at h
  split at h
  · rename_i hj hmode
    unfold performed at h
    split at h
    case h_1 =>
      unfold served at h
      split at h
      case h_1 => simp at h
      case h_2 | h_3 | h_4 => split at h <;> simp at h
      case h_5 | h_6 => exact absurd h (handed _ _)
      case h_7 =>
        split at h
        · split at h <;> simp at h
        · cases h
      case h_8 | h_10 => exact absurd h (join _ _)
      case h_9 => exact absurd h (cell _ _)
      case h_11 => cases h
    case h_2 | h_5 | h_7 => split at h <;> simp at h
    case h_3 =>
      split at h
      · exact absurd h (handed _ _)
      · cases h
    case h_4 => exact absurd h (handed _ _)
    case h_6 l' k f e' batch =>
      rcases List.mem_cons.mp h with he | he
      · cases he
        exact ⟨k, f, batch, _, _, hj, hmode⟩
      · unfold entryProcessed at he
        split at he
        case h_1 => simp at he
        case h_2 | h_3 => split at he <;> simp at he
        case h_4 => cases he
    case h_8 => cases h
  · simp at h
  · cases h

/-- As long as a callback of loop `l` has not returned, the loop is the one that is being run. -/
theorem Sound.inside_of_called (hs : m.Sound) {q : Parked G} (hq : q ∈ m.strands)
    (h : .called l ∈ q.jobs) : Inside l q.jobs ∧ q.thread.current = some l := by
  obtain ⟨above, below, hjobs⟩ := List.append_of_mem h
  have hstacked : Stacked (.called l :: below) :=
    stacked_of_suffix (hjobs ▸ (hs.strands q hq).stacked)
  obtain ⟨k, f, batch, rest, rfl⟩ := hstacked.1
  have hturn : .turn l k f batch ∈ q.jobs := by simp [hjobs]
  have hinside : Inside l q.jobs := hs.inside_of_mem hq hturn (.inl (by simp [Job.isDrive]))
  exact ⟨hinside, (hs.current_iff hq l).mpr hinside⟩

/-- The loop whose entry is being processed is the one that is being run. -/
theorem Sound.inside_of_turn (hs : m.Sound) {k : WakerId} {f : Future G.Coroutine}
    {batch : List (Entry G)} (hj : m.jobs = .turn l k f batch :: rest) :
    Inside l m.jobs ∧ m.world.thread.current = some l := by
  have hq : (⟨m.world.thread, m.mode, m.jobs⟩ : Parked G) ∈ m.strands := List.mem_cons_self
  have hinside : Inside l m.jobs :=
    hs.inside_of_mem hq (hj ▸ List.mem_cons_self) (.inl (by simp [Job.isDrive]))
  exact ⟨hinside, (hs.current_iff hq l).mpr hinside⟩

/-! ## What becomes of a future that a loop is to start -/

/-- A callback is handed to loop `l`, which accepts it: it is queued there, and nothing else is
done. -/
structure HandedOver (code : G.Code) (m : Machine G) (l : LoopId) (c : HandOff G)
    (rest : List (Job G)) : Prop where
  happenings : m.happenings = [.accepted l (.call c)]
  milestones : m.milestones = []
  world : (m.step code).world = m.world.enqueue l (.call c)
  jobs : (m.step code).jobs = rest
  answer : (m.step code).mode = .going (.unit (.ok ()))

theorem handedOver_of_open (code : G.Code) {job : Job G} {c : HandOff G} {a : Answer G}
    (hc : job.hands? = some (l, c)) (hj : m.jobs = job :: rest) (hmode : m.mode = .going a)
    (hopen : m.world.isClosed l = false) : HandedOver code m l c rest := by
  obtain ⟨w, hpush⟩ : ∃ w, m.world.push? l (.call c) = some w := by
    rw [← Option.isSome_iff_exists, ← Option.not_isNone, ← World.isClosed_eq_isNone_push?, hopen]
    rfl
  obtain ⟨_, rfl⟩ := World.push?_eq_some_iff.mp hpush
  have hands : m.step code = { m with jobs := rest }.handOff l c ∧
      m.happenings = m.handed l (.call c) ∧ m.milestones = [] := by
    cases job with
    | handOff l' c' =>
      cases hc
      refine ⟨step_of_going hj hmode rfl, ?_, ?_⟩
      · simp only [Machine.happenings, hj, hmode, performed]
      · simp only [Machine.milestones, hj, hmode, World.told]
    | serve q =>
      cases q with
      | callSoon | startOn =>
        cases hc
        refine ⟨step_of_going hj hmode rfl, ?_, ?_⟩
        · simp only [Machine.happenings, hj, hmode, performed, served]
        · simp only [Machine.milestones, hj, hmode, World.told]
      | _ => cases hc
    | _ => cases hc
  obtain ⟨hstep, hη, hσ⟩ := hands
  simp only [handOff, hpush] at hstep
  refine ⟨?_, hσ, ?_, ?_, ?_⟩
  · rw [hη, handed_of_some hpush]
  all_goals
    rw [hstep]
    rfl

/-- The callback by which future `f` is to be started on loop `l` is called: the loop is current,
and one task that nobody awaits is spawned on it; no other task is touched. -/
structure Landed (code : G.Code) (m : Machine G) (l : LoopId) (f : Future G.Coroutine) : Prop where
  current : m.world.thread.current = some l
  milestones : m.milestones = [.spawned l (m.world.nextSlot l) ⟨m.world.wakers.size⟩ .detached]
  task : (m.step code).world.task? l (m.world.nextSlot l) =
    some ⟨⟨m.world.wakers.size⟩, some ⟨.detached, false, f.map code.accept⟩⟩
  others : ∀ l' slot, (l', slot) ≠ (l, m.world.nextSlot l) →
    (m.step code).world.task? l' slot = m.world.task? l' slot
  jobs : ∃ k g batch rest, m.jobs = .turn l k g (.call (.start f) :: batch) :: rest ∧
    (m.step code).jobs = .wake ⟨m.world.wakers.size⟩ :: .turn l k g batch :: rest

theorem Walked.landed (hm : Walked code p m) {f : Future G.Coroutine}
    (h : .processed l (.call (.start f)) ∈ m.happenings) : Landed code m l f := by
  obtain ⟨k, g, batch, rest, a, hj, hmode⟩ := turn_of_processed h
  obtain ⟨_, hcurrent⟩ := hm.sound.inside_of_turn hj
  have htable := World.tasks?_of_isClosed (hm.reached.opened_of_current hcurrent)
  have hstep : m.step code = { m with jobs := rest }.turn code l k g (.call (.start f) :: batch) :=
    step_of_going hj hmode rfl
  have hcurrent' : ∀ jobs mode, current { m with jobs, mode } = some l := fun _ _ => hcurrent
  simp only [turn, process, push, insert, go, call, hcurrent', set] at hstep
  have hworld : (m.step code).world = (m.world.addTask l .detached (f.map code.accept)).1 := by
    rw [hstep]
  refine ⟨hcurrent, ?_, ?_, ?_, k, g, batch, rest, hj, ?_⟩
  · simp only [Machine.milestones, hj, hmode, World.told, World.toldOfSpawn, hcurrent]
  · rw [hworld, hm.census.valid.task?_addTask htable, if_pos ⟨rfl, rfl⟩]
  · intro l' slot hne
    rw [hworld, hm.census.valid.task?_addTask htable, if_neg]
    rintro ⟨rfl, rfl⟩
    exact hne rfl
  · rw [hstep]
    rfl

/-- Where the turn of a loop spawns a task, it processes a callback that is to start one. -/
theorem processed_of_spawned {l' : LoopId} {slot : Nat} {k k' : WakerId} {kind : Kind}
    {f : Future G.Coroutine} {batch : List (Entry G)} (hj : m.jobs = .turn l k f batch :: rest)
    (h : .spawned l' slot k' kind ∈ m.milestones) :
    ∃ g, .processed l (.call (.start g)) ∈ m.happenings := by
  obtain ⟨job, rest', mode, hj', hmode, origin⟩ := origin_of_milestone h
  cases hj.symm.trans hj'
  cases origin with
  | spawned hspawns =>
    match batch, hspawns with
    | .call (.start g) :: batch, _ =>
      exact ⟨g, by simp [Machine.happenings, hj, hmode, performed]⟩

/-- What is processed was accepted before. -/
theorem Walked.accepted_of_processed (hm : Walked code p m) {e : Entry G}
    (h : .processed l e ∈ m.happenings) : .accepted l e ∈ p.flatMap happenings := by
  obtain ⟨k, f, batch, rest, a, hj, hmode⟩ := turn_of_processed h
  have hnext := hm.next_of_going hj hmode rfl
  have hmem : .processed l e ∈ (p ++ [m]).flatMap happenings :=
    List.mem_flatMap.mpr ⟨m, by simp, h⟩
  have haccepted := hnext.reached.trail.accepted_of_processed hmem
  rw [List.flatMap_append, List.flatMap_singleton, List.mem_append] at haccepted
  refine haccepted.resolve_right fun hnow => ?_
  simp only [happenings, hj, hmode, performed, List.mem_cons, reduceCtorEq, false_or] at hnow
  unfold entryProcessed at hnow
  split at hnow
  case h_1 => simp at hnow
  case h_2 | h_3 => split at hnow <;> simp at hnow
  case h_4 => cases hnow

/-- A callback of the guest runs above the turn of the loop that accepted it. -/
theorem step_turn_own (code : G.Code) {c : G.Callback}
    (h : .processed l (.call (.own c)) ∈ m.happenings) :
    ∃ k f batch rest, m.jobs = .turn l k f (.call (.own c) :: batch) :: rest ∧
      WorksDown code (m.step code) [.resume (code.call c), .called l]
        (.turn l k f batch :: rest) := by
  obtain ⟨k, f, batch, rest, a, hj, hmode⟩ := turn_of_processed h
  refine ⟨k, f, batch, rest, hj, worksDown_of_jobs ?_⟩
  rw [step_of_going hj hmode rfl]
  rfl

/-! ## Hand-offs -/

/-- **Hand-offs run on their own loop.** For any number of loops on any threads, and in any run:

* a callback is processed by loop `l` only if `l` accepted it, and then `l` is being run on the
  thread that does so, and current on it; a callback of the guest runs above the turn of `l`, and as
  long as it has not returned `l` is the loop that is being run below it, and current to it;
* a callback that is handed to `l`, on whatever thread and in whatever loop, is queued on `l`, and
  no task is spawned by that; if `l` is closed, the callback is refused;
* the callback that is to start a future always finds the current loop, which is `l`: when it is
  processed, one task is spawned, on `l`, and no other callback spawns one by itself;
* the futures that were started on `l`, and behind them those that are to be, come in the order in
  which their callbacks were accepted, each of them once. -/
theorem hand_offs_run_on_their_loop (hm : Walked code p m) (l : LoopId) :
    (∀ c, .processed l (.call c) ∈ m.happenings → .accepted l (.call c) ∈ p.flatMap happenings ∧
      Inside l m.jobs ∧ m.world.thread.current = some l) ∧
    (∀ c, .processed l (.call (.own c)) ∈ m.happenings →
      ∃ k f batch rest, m.jobs = .turn l k f (.call (.own c) :: batch) :: rest ∧
        WorksDown code (m.step code) [.resume (code.call c), .called l]
          (.turn l k f batch :: rest)) ∧
    (∀ q ∈ m.strands, .called l ∈ q.jobs → Inside l q.jobs ∧ q.thread.current = some l) ∧
    (∀ job c rest a, job.hands? = some (l, c) → m.jobs = job :: rest → m.mode = .going a →
      (m.world.isClosed l = false → HandedOver code m l c rest) ∧
      (m.world.isClosed l = true → Rejected code m c rest)) ∧
    (∀ f, .processed l (.call (.start f)) ∈ m.happenings → Landed code m l f) ∧
    (∀ k f batch rest, m.jobs = .turn l k f batch :: rest → m.world.thread.current = some l ∧
      ∀ l' slot k' kind, .spawned l' slot k' kind ∈ m.milestones →
        ∃ g, .processed l (.call (.start g)) ∈ m.happenings) ∧
    (startedOn l (p.flatMap happenings) ++
      (m.unprocessed l).filterMap Entry.starts?).Sublist (broughtTo l (p.flatMap happenings)) := by
  refine ⟨?_, ?_, ?_, ?_, ?_, ?_, hm.reached.startedOn_sublist l⟩
  · intro c h
    obtain ⟨k, f, batch, rest, a, hj, _⟩ := turn_of_processed h
    exact ⟨hm.accepted_of_processed h, hm.sound.inside_of_turn hj⟩
  · intro c h
    exact step_turn_own code h
  · intro q hq h
    exact hm.sound.inside_of_called hq h
  · intro job c rest a hc hj hmode
    exact ⟨handedOver_of_open code hc hj hmode, rejected_of_isClosed code hc hj hmode⟩
  · intro f h
    exact hm.landed h
  · intro k f batch rest hj
    refine ⟨(hm.sound.inside_of_turn hj).2, fun l' slot k' kind h => ?_⟩
    exact processed_of_spawned hj h

open Script

/-- While a main future runs on one loop, another thread runs one on a loop of its own that has two
futures started on the first loop. -/
def startedFromAfar : List (String × Statement) :=
  onLoop [[line "thread" "t" (.thread "t"
      [line "loop" "M" (.loop "M" none none none false),
        line "block_on" "M" (.blockOn "M" (.program (.mk "far"
          [line "start_on" "h" (.startOn "h" (.mk "a" [] none none)),
            line "start_on" "h" (.startOn "h" (.mk "b" [] none none))] none none)))]),
    line "yield" "" (.yield 2)]]

/-- The callback that is about to be handed to a loop. -/
def handing? (m : Machine G) : Option (LoopId × HandOff G) :=
  match m.jobs, m.mode with
  | job :: _, .going _ => job.hands?
  | _, _ => none

theorem jobs_of_handing {c : HandOff G} (h : m.handing? = some (l, c)) :
    ∃ job rest a, job.hands? = some (l, c) ∧ m.jobs = job :: rest ∧ m.mode = .going a := by
  unfold handing? at h
  split at h
  · rename_i hj hmode
    exact ⟨_, _, _, h, hj, hmode⟩
  · cases h

/-- The first of them is handed over inside of the other loop, and spawned on the first one; in the
end both were started. -/
theorem hand_offs_run_on_their_loop_of_script :
    (follow startedFromAfar 28).2.world.thread.id = ⟨1⟩ ∧
      (follow startedFromAfar 28).2.world.thread.current = some ⟨1⟩ ∧
      (∃ c rest, HandedOver Script.code (follow startedFromAfar 28).2 ⟨0⟩ c rest) ∧
      (∃ f, Landed Script.code (follow startedFromAfar 59).2 ⟨0⟩ f) ∧
      (startedOn ⟨0⟩ ((follow startedFromAfar 65).1.flatMap happenings)).length = 2 ∧
      (startedOn ⟨0⟩ ((follow startedFromAfar 65).1.flatMap happenings) ++
        ((follow startedFromAfar 65).2.unprocessed ⟨0⟩).filterMap Entry.starts?).Sublist
          (broughtTo ⟨0⟩ ((follow startedFromAfar 65).1.flatMap happenings)) := by
  have h := hand_offs_run_on_their_loop (walked_follow startedFromAfar 28) ⟨0⟩
  have h' := hand_offs_run_on_their_loop (walked_follow startedFromAfar 59) ⟨0⟩
  have h'' := hand_offs_run_on_their_loop (walked_follow startedFromAfar 65) ⟨0⟩
  refine ⟨by decide +kernel, by decide +kernel, ?_, ?_, by decide +kernel, h''.2.2.2.2.2.2⟩
  · have hhanding : (follow startedFromAfar 28).2.handing?.any (fun x => x.1 = ⟨0⟩) = true := by
      decide +kernel
    obtain ⟨⟨l, c⟩, hsome, hl⟩ := Option.any_eq_true _ _ |>.mp hhanding
    obtain rfl : l = ⟨0⟩ := by simpa using hl
    obtain ⟨job, rest, a, hc, hj, hmode⟩ := jobs_of_handing hsome
    exact ⟨c, rest, (h.2.2.2.1 job c rest a hc hj hmode).1 (by decide +kernel)⟩
  · have hlen : (startedOn ⟨0⟩ (follow startedFromAfar 59).2.happenings).length = 1 := by
      decide +kernel
    obtain ⟨f, hf⟩ := List.exists_mem_of_length_pos (hlen ▸ Nat.one_pos)
    exact ⟨f, h'.2.2.2.2.1 f (mem_startedOn.mp hf)⟩

end Machine

end RunLoop
