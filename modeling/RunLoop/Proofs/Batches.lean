import RunLoop.Proofs.Fifo
import RunLoop.Proofs.Ledger
import RunLoop.Proofs.Play

/-!
# Batches refine a queue

The work of a loop is in two places: the batch at which its main future was last polled, and the
queue that everybody puts entries into. Both together behave as one queue, whatever comes in while a
batch is being processed and wherever in it the main future comes to its end. The one exception is a
panic of the main future with a batch behind it: the rest of the batch is dropped.

* `Machine.fifo` reads a loop with one queue off the machine.
* `Machine.Move.fifo`: a move of the machine is a step of that loop, or does not concern it.
* `Trail.fifo` says so of runs.
-/

namespace RunLoop

variable {G : Guest} {l : LoopId}

/-- What a happening shows of loop `l`. -/
def Happening.sign? (l : LoopId) : Happening G → Option (Fifo.Sign (Entry G))
  | built l' => if l' = l then some .built else none
  | entered l' _ => if l' = l then some .entered else none
  | accepted l' e => if l' = l then some (.accepted e) else none
  | processed l' e => if l' = l then some (.processed e) else none
  | ready l' => if l' = l then some .left else none
  | panicked l' rest => if l' = l then some (.lost rest) else none
  | closed l' => if l' = l then some .closed else none
  | _ => none

/-- What a history shows of loop `l`. -/
def signs (l : LoopId) (τ : List (Happening G)) : List (Fifo.Sign (Entry G)) :=
  τ.filterMap (Happening.sign? l)

@[simp] theorem signs_nil : signs l ([] : List (Happening G)) = [] :=
  rfl

@[simp] theorem signs_cons (h : Happening G) (τ : List (Happening G)) :
    signs l (h :: τ) = (h.sign? l).toList ++ signs l τ :=
  filterMap_cons_eq _ h τ

@[simp] theorem signs_append (τ τ' : List (Happening G)) :
    signs l (τ ++ τ') = signs l τ ++ signs l τ' :=
  List.filterMap_append

theorem filterMap_accepted?_signs (τ : List (Happening G)) :
    (signs l τ).filterMap Fifo.Sign.accepted? = acceptedBy l τ := by
  rw [signs, acceptedBy, List.filterMap_filterMap]
  congr 1
  funext h
  cases h <;> simp only [Happening.sign?, Happening.accepted?] <;> (try split) <;> rfl

theorem filterMap_processed?_signs (τ : List (Happening G)) :
    (signs l τ).filterMap Fifo.Sign.processed? = processedBy l τ := by
  rw [signs, processedBy, List.filterMap_filterMap]
  congr 1
  funext h
  cases h <;> simp only [Happening.sign?, Happening.processed?] <;> (try split) <;> rfl

/-- The batch that is left while loop `l` is driven. -/
def Job.batch? (l : LoopId) : Job G → Option (List (Entry G))
  | mainPolled l' _ batch => if l' = l then some batch else none
  | turn l' _ _ batch => if l' = l then some batch else none
  | _ => none

/-- The batches of loop `l`; there is one while its main future runs. -/
def batches (l : LoopId) (jobs : List (Job G)) : List (List (Entry G)) :=
  jobs.filterMap (Job.batch? l)

/-! ## One batch at a time -/

@[simp] theorem batches_nil : batches l ([] : List (Job G)) = [] :=
  rfl

@[simp] theorem batches_cons (job : Job G) (jobs : List (Job G)) :
    batches l (job :: jobs) = (job.batch? l).toList ++ batches l jobs :=
  filterMap_cons_eq _ job jobs

theorem batches_append (jobs jobs' : List (Job G)) :
    batches l (jobs ++ jobs') = batches l jobs ++ batches l jobs' :=
  List.filterMap_append

theorem batches_eq_nil {jobs : List (Job G)} (h : ∀ i ∈ jobs, i.isDrive l = false) :
    batches l jobs = [] := by
  refine List.filterMap_eq_nil_iff.mpr fun i hi => ?_
  have := h i hi
  cases i <;> simp_all [Job.isDrive, Job.batch?]

theorem batches_of_free {jobs : List (Job G)} (h : Free l jobs) : batches l jobs = [] :=
  batches_eq_nil fun i hi => (h i hi).2.1

theorem batches_of_alone {jobs : List (Job G)} (h : Alone l jobs) : batches l jobs = [] :=
  batches_eq_nil fun i hi => (h.2 i hi).1

@[simp] theorem batches_map_wake (ws : List WakerId) :
    batches l (ws.map (Job.wake (G := G))) = [] :=
  batches_eq_nil (by simp [Job.isDrive])

theorem batches_filter_isDuty (jobs : List (Job G)) :
    batches l (jobs.filter Job.isDuty) = batches l jobs := by
  unfold batches
  rw [List.filterMap_filter]
  congr 1
  funext i
  cases i <;> rfl

/-! ## The two places -/

/-- The two places where entries of a loop are: its queue, if it was built, and the batch of its
main future, if one runs. -/
structure Bench (α : Type) where
  queue : Option (Queue α)
  batch : Option (List α)

namespace Bench

variable {α : Type}

/-- What a loop with a queue and a batch does. -/
inductive Step : Bench α → List (Fifo.Sign α) → Bench α → Prop where
  | none {b : Bench α} : Step b [] b
  | build : Step ⟨.none, .none⟩ [.built] ⟨some .empty, .none⟩
  | enter {q : Queue α} (h : q.closed = false) : Step ⟨some q, .none⟩ [.entered] ⟨some q, some []⟩
  | accept {q : Queue α} {batch : Option (List α)} {a : α} (h : q.closed = false) :
      Step ⟨some q, batch⟩ [.accepted a] ⟨some ⟨q.entries ++ [a], false⟩, batch⟩
  | take {q : Queue α} (h : q.closed = false) :
      Step ⟨some q, some []⟩ [] ⟨some q.takeBatch.1, some q.takeBatch.2⟩
  | process {q : Queue α} {a : α} {rest : List α} (h : q.closed = false) :
      Step ⟨some q, some (a :: rest)⟩ [.processed a] ⟨some q, some rest⟩
  | ready {q : Queue α} {rest : List α} (h : q.closed = false) :
      Step ⟨some q, some rest⟩ [.left] ⟨some (q.putBack rest), .none⟩
  | lose {q : Queue α} {rest : List α} (h : q.closed = false) :
      Step ⟨some q, some rest⟩ [.lost rest] ⟨some q, .none⟩
  | close {q : Queue α} (h : q.closed = false) :
      Step ⟨some q, .none⟩ [.closed] ⟨some q.close.1, .none⟩

/-- The loop with one queue that a queue and a batch amount to. -/
def toFifo (b : Bench α) : Fifo α where
  phase :=
    match b.queue, b.batch with
    | .none, _ => .unbuilt
    | some q, .none => if q.closed then .closed else .idle
    | some _, some _ => .running
  queue := b.batch.getD [] ++ (b.queue.map (·.entries)).getD []

/-- A queue and a batch behave as one queue, which loses what is left of a batch in a panic. -/
theorem Step.moves {b b' : Bench α} {σ : List (Fifo.Sign α)} (step : Step b σ b') :
    Fifo.Moves Fifo.Lossy b.toFifo σ b'.toFifo := by
  cases step with
  | none => exact .inl ⟨rfl, rfl⟩
  | build => exact .inr ⟨_, rfl, .step .build⟩
  | enter h =>
    refine .inr ⟨_, rfl, .step ?_⟩
    simpa [toFifo, h] using Fifo.Step.enter
  | @accept q batch a h =>
    refine .inr ⟨_, rfl, .step ?_⟩
    cases batch with
    | none => simpa [toFifo, h] using Fifo.Step.accept (.inl rfl)
    | some rest =>
      have hstep := @Fifo.Step.accept _ _ (rest ++ q.entries) a (.inr rfl)
      simpa [toFifo] using hstep
  | take => exact .inl ⟨rfl, by simp [toFifo, Queue.takeBatch]⟩
  | process => exact .inr ⟨_, rfl, .step .process⟩
  | ready h =>
    refine .inr ⟨_, rfl, .step ?_⟩
    simpa [toFifo, Queue.putBack, h] using Fifo.Step.leave
  | lose h =>
    refine .inr ⟨_, rfl, ?_⟩
    simpa [toFifo, h] using Fifo.Lossy.lose
  | close h =>
    refine .inr ⟨_, rfl, .step ?_⟩
    simpa [toFifo, Queue.close, h] using Fifo.Step.close

end Bench

/-- The two places of loop `l`. -/
def bench (w : World G) (D : List (Job G)) (l : LoopId) : Bench (Entry G) :=
  ⟨w.queue? l, (batches l D).head?⟩

/-- At most one main future of a loop runs, and the loop is open. -/
structure Tidy (w : World G) (D : List (Job G)) (l : LoopId) : Prop where
  single : (batches l D).length ≤ 1
  opened : batches l D ≠ [] → w.isClosed l = false

theorem isClosed_eq_false {w : World G} (h : w.isClosed l = false) :
    ∃ q, w.queue? l = some q ∧ q.closed = false := by
  rw [World.isClosed_eq] at h
  cases hq : w.queue? l with
  | none => simp [hq] at h
  | some q => exact ⟨q, rfl, by simpa [hq] using h⟩

section

variable {w w' : World G} {others before after : List (Job G)} {η : List (Happening G)}

/-- The two places of loop `l` take a step. -/
structure Benched (w : World G) (D : List (Job G)) (l : LoopId) (η : List (Happening G))
    (w' : World G) (D' : List (Job G)) : Prop where
  step : Bench.Step (bench w D l) (signs l η) (bench w' D' l)
  tidy : Tidy w' D' l

/-- Nothing happens to the loop. -/
theorem benched_frame (h : Tidy w (before ++ others) l) (hq : w'.queue? l = w.queue? l)
    (hb : batches l after = batches l before) (hs : signs l η = []) :
    Benched w (before ++ others) l η w' (after ++ others) := by
  have hb' : batches l (after ++ others) = batches l (before ++ others) := by
    rw [batches_append, batches_append, hb]
  refine ⟨?_, ?_, ?_⟩
  · rw [hs, bench, bench, hq, hb']
    exact .none
  · rw [hb']
    exact h.single
  · rw [hb', World.isClosed_eq, hq, ← World.isClosed_eq]
    exact h.opened

/-- Where no other duty is about the main future, the batches before and after tell everything. -/
theorem benched_of_alone (ho : batches l others = []) (hone : (batches l after).length ≤ 1)
    (hopen : batches l after ≠ [] → w'.isClosed l = false)
    (hstep : Bench.Step ⟨w.queue? l, (batches l before).head?⟩ (signs l η)
      ⟨w'.queue? l, (batches l after).head?⟩) :
    Benched w (before ++ others) l η w' (after ++ others) := by
  refine ⟨?_, ?_, ?_⟩
  · simpa only [bench, batches_append, ho, List.append_nil] using hstep
  · rwa [batches_append, ho, List.append_nil]
  · rwa [batches_append, ho, List.append_nil]

theorem Tidy.driven (h : Tidy w (before ++ others) l) (hne : batches l before ≠ []) :
    ∃ q, w.queue? l = some q ∧ q.closed = false :=
  isClosed_eq_false (h.opened (by rw [batches_append]; simp [hne]))

/-- A loop accepts an entry. -/
theorem benched_accept (h : Tidy w (before ++ others) l) {l' : LoopId} {e : Entry G}
    (hopen : w.isClosed l' = false) (hb : batches l before = []) (ha : batches l after = []) :
    Benched w (before ++ others) l [.accepted l' e] (w.enqueue l' e) (after ++ others) := by
  by_cases hl : l' = l
  · subst hl
    obtain ⟨q, hq, hqc⟩ := isClosed_eq_false hopen
    have hq' : (w.enqueue l' e).queue? l' = some ⟨q.entries ++ [e], false⟩ := by
      rw [World.enqueue, World.queue?_modifyQueue, if_pos rfl, hq, Option.map_some, hqc]
    have hsingle := h.single
    simp only [batches_append, hb, List.nil_append] at hsingle
    refine ⟨?_, ?_, fun _ => ?_⟩
    · simp only [bench, batches_append, hb, ha, hq, hq', List.nil_append, signs_cons,
        Happening.sign?, if_true, signs_nil, Option.toList_some, List.append_nil]
      exact .accept hqc
    · simpa [batches_append, ha] using hsingle
    · simp [World.isClosed_eq, hq']
  · refine benched_frame h ?_ (ha.trans hb.symm) (by simp [Happening.sign?, hl])
    rw [World.enqueue, World.queue?_modifyQueue, if_neg hl]

/-- A loop processes the first entry of its batch. -/
theorem benched_process {l' : LoopId} {k : WakerId} {f : Future G.Coroutine} {e : Entry G}
    {rest : List (Entry G)} (h : Tidy w ([.turn l' k f (e :: rest)] ++ others) l)
    (halone : Alone l' others) (hq : w'.queue? l = w.queue? l)
    (ha : batches l after = batches l [.turn l' k f rest])
    (hs : signs l η = signs l [.processed l' e]) :
    Benched w ([.turn l' k f (e :: rest)] ++ others) l η w' (after ++ others) := by
  by_cases hl : l' = l
  · subst hl
    simp only [batches_cons, Job.batch?, if_true, Option.toList_some, batches_nil,
      List.append_nil] at ha
    simp only [signs_cons, Happening.sign?, if_true, Option.toList_some, signs_nil,
      List.append_nil] at hs
    obtain ⟨q, hwq, hqc⟩ := h.driven (by simp [Job.batch?])
    refine benched_of_alone (batches_of_alone halone) (by simp [ha]) (fun _ => ?_) ?_
    · simp [World.isClosed_eq, hq, hwq, hqc]
    · rw [hq, ha, hs, hwq]
      simpa [Job.batch?] using Bench.Step.process hqc
  · refine benched_frame h hq ?_ ?_
    · simp [ha, Job.batch?, hl]
    · simp [hs, Happening.sign?, hl]

/-- Every effect is a step of the two places of a loop. -/
theorem Effect.benched (effect : Effect w others before η w' after)
    (h : Tidy w (before ++ others) l) :
    Benched w (before ++ others) l η w' (after ++ others) := by
  cases effect with
  | build c =>
    by_cases hl : l = ⟨w.loops.size⟩
    · subst hl
      have hq : w.queue? ⟨w.loops.size⟩ = Option.none := World.queue?_size w
      -- A loop that was not built counts as closed, so it has no batch.
      have hb : batches ⟨w.loops.size⟩ others = [] := by
        have hopen := h.opened
        simp only [World.isClosed_eq, hq] at hopen
        simpa using hopen
      refine benched_of_alone hb (by simp) (by simp) ?_
      simpa [World.queue?_build, hq, Happening.sign?] using Bench.Step.build
    · exact benched_frame h (by simp [World.queue?_build, hl]) rfl
        (by simp [Happening.sign?, Ne.symm hl])
  | @close l' hf hc =>
    by_cases hl : l' = l
    · subst hl
      obtain ⟨q, hq, hqc⟩ := isClosed_eq_false hc
      refine benched_of_alone (batches_of_free hf) (by simp) (by simp) ?_
      simpa [World.queue?_modifyQueue, hq, Happening.sign?] using Bench.Step.close hqc
    · exact benched_frame h (by simp [World.queue?_modifyQueue, hl]) rfl
        (by simp [Happening.sign?, hl])
  | @enter l' hf hc =>
    by_cases hl : l' = l
    · subst hl
      obtain ⟨q, hq, hqc⟩ := isClosed_eq_false hc
      refine benched_of_alone (batches_of_free hf) (by simp [Job.batch?]) (fun _ => hc) ?_
      simpa [hq, Happening.sign?, Job.batch?] using Bench.Step.enter hqc
    · exact benched_frame h (by simp) (by simp [Job.batch?, hl]) (by simp [Happening.sign?, hl])
  | submit _ ho | handOver ho | notify _ ho => exact benched_accept h ho (by simp [Job.batch?]) rfl
  | @take l' k f ha =>
    by_cases hl : l' = l
    · subst hl
      obtain ⟨q, hq, hqc⟩ := h.driven (by simp [Job.batch?])
      refine benched_of_alone (batches_of_alone ha) (by simp [Job.batch?]) (fun _ => ?_) ?_
      · simp [World.isClosed_eq, World.queue?_modifyQueue, hq, hqc]
      · simpa [World.queue?_modifyQueue, hq, Job.batch?, World.queued, Queue.takeBatch] using
          Bench.Step.take (q := q) hqc
    · exact benched_frame h (by simp [World.queue?_modifyQueue, hl]) (by simp [Job.batch?, hl]) rfl
  | processMain ha => exact benched_process h ha rfl rfl (by simp [Happening.sign?])
  | processNobody ha | processCall ha | processSettled ha => exact benched_process h ha rfl rfl rfl
  | processTask ha =>
    exact benched_process h ha (by simp) (by simp [Job.batch?]) (by simp [Happening.sign?])
  | processSettle ha =>
    exact benched_process h ha rfl (by simp [batches_append]) (by simp [Happening.sign?])
  | processStart ha => exact benched_process h ha (by simp) (by simp [Job.batch?]) rfl
  | mainPending =>
    exact benched_frame h rfl (by simp [Job.batch?]) rfl
  | @mainReady l' k batch ha =>
    by_cases hl : l' = l
    · subst hl
      obtain ⟨q, hq, hqc⟩ := h.driven (by simp [Job.batch?])
      refine benched_of_alone (batches_of_alone ha) (by simp) (by simp) ?_
      simpa [World.queue?_modifyQueue, hq, Job.batch?, Happening.sign?] using
        (Bench.Step.ready hqc : Bench.Step ⟨some q, some batch⟩ _ _)
    · exact benched_frame h (by simp [World.queue?_modifyQueue, hl]) (by simp [Job.batch?, hl])
        (by simp [Happening.sign?, hl])
  | @mainPanicked l' k batch ha =>
    by_cases hl : l' = l
    · subst hl
      obtain ⟨q, hq, hqc⟩ := h.driven (by simp [Job.batch?])
      refine benched_of_alone (batches_of_alone ha) (by simp) (by simp) ?_
      simpa [hq, Job.batch?, Happening.sign?] using
        (Bench.Step.lose hqc : Bench.Step ⟨some q, some batch⟩ _ _)
    · exact benched_frame h rfl (by simp [Job.batch?, hl]) (by simp [Happening.sign?, hl])
  | spawn =>
    refine benched_frame h ?_ (by simp [Job.batch?]) rfl
    rw [World.queue?_addTask]
    rfl
  | fill => exact benched_frame h rfl (by simp) rfl
  | _ => exact benched_frame h (by simp) (by simp [Job.batch?]) (by simp [Happening.sign?])

/-! ## Runs -/

theorem bench_same (h : Tidy w before l) (hw : w.Agrees w') (hD : before.Perm after) :
    bench w' after l = bench w before l ∧ Tidy w' after l := by
  have hq : w'.queue? l = w.queue? l := by
    simp [World.queue?, World.loop?, hw.loops]
  -- There is one batch at most, so the order of the duties does not matter.
  have hb : batches l after = batches l before := by
    have hperm : (batches l before).Perm (batches l after) := hD.filterMap _
    have hone := h.single
    cases hl : batches l before with
    | nil =>
      rw [hl] at hperm
      exact hperm.nil_eq.symm
    | cons b bs =>
      obtain rfl : bs = [] := by
        rw [hl] at hone
        simpa using hone
      rw [hl] at hperm
      exact (List.perm_singleton.mp hperm.symm)
  refine ⟨by rw [bench, bench, hq, hb], ?_, ?_⟩
  · rw [hb]
    exact h.single
  · rw [hb, World.isClosed_eq, hq, ← World.isClosed_eq]
    exact h.opened

theorem Trail.tidy {τ : List (Happening G)} (trail : Trail w before τ w' after)
    (h : Tidy w before l) : Tidy w' after l := by
  induction trail with
  | here => exact h
  | same _ hw hD ih => exact (bench_same ih hw hD).2
  | step _ effect ih => exact (effect.benched ih).tidy

/-- Along every run the two places of a loop behave as one queue, up to losses. -/
theorem Trail.fifo {τ : List (Happening G)} (trail : Trail w before τ w' after)
    (h : Tidy w before l) :
    Fifo.Run Fifo.Lossy (bench w before l).toFifo (signs l τ) (bench w' after l).toFifo := by
  induction trail with
  | here => exact .here
  | same trail hw hD ih =>
    rw [(bench_same (trail.tidy h) hw hD).1]
    exact ih
  | step trail effect ih =>
    rw [signs_append]
    exact ih.moves (effect.benched (trail.tidy h)).step.moves

theorem tidy_empty : Tidy (World.empty : World G) [] l :=
  ⟨by simp, by simp⟩

theorem Trail.fifo_of_empty {τ : List (Happening G)} (trail : Trail .empty [] τ w after) :
    Fifo.Run Fifo.Lossy .unbuilt (signs l τ) (bench w after l).toFifo :=
  trail.fifo tidy_empty

/-- What is queued was accepted. -/
theorem Trail.accepted_of_mem_queue {τ : List (Happening G)} (trail : Trail .empty [] τ w after)
    {e : Entry G} (h : e ∈ (bench w after l).toFifo.queue) : .accepted l e ∈ τ := by
  have hq := trail.fifo_of_empty.mem_queue h
  rw [filterMap_accepted?_signs, mem_acceptedBy] at hq
  exact hq.resolve_left (by simp [Fifo.unbuilt])

/-- What is processed was accepted. -/
theorem Trail.accepted_of_processed {τ : List (Happening G)} (trail : Trail .empty [] τ w after)
    {e : Entry G} (h : .processed l e ∈ τ) : .accepted l e ∈ τ := by
  rw [← mem_processedBy, ← filterMap_processed?_signs] at h
  have hp := trail.fifo_of_empty.mem_processed h
  rw [filterMap_accepted?_signs, mem_acceptedBy] at hp
  exact hp.resolve_left (by simp [Fifo.unbuilt])

end

/-! ## Losses -/

/-- No main future of loop `l` panics. -/
def Steady (l : LoopId) (τ : List (Happening G)) : Prop :=
  ∀ rest, .panicked l rest ∉ τ

/-- No entries of loop `l` are lost: its main future never panics with a batch behind it. -/
def Lossless (l : LoopId) (τ : List (Happening G)) : Prop :=
  ∀ rest, .panicked l rest ∈ τ → rest = []

theorem Steady.lossless {τ : List (Happening G)} (h : Steady l τ) : Lossless l τ :=
  fun rest hr => absurd hr (h rest)

/-- The rest of a batch of loop `l` that is dropped by a panic. -/
def Happening.lost? (l : LoopId) : Happening G → Option (List (Entry G))
  | panicked l' rest => if l' = l then some rest else none
  | _ => none

theorem Happening.lost?_eq_some_iff {h : Happening G} {rest : List (Entry G)} :
    h.lost? l = some rest ↔ h = .panicked l rest := by
  cases h <;> simp [lost?]

instance (τ : List (Happening G)) : Decidable (Steady l τ) :=
  decidable_of_iff (∀ h ∈ τ, h.lost? l = none) <| by
    simp only [Steady, Option.eq_none_iff_forall_ne_some, ne_eq, Happening.lost?_eq_some_iff]
    exact ⟨fun h rest hr => h _ hr rest rfl, fun h i hi rest he => h rest (he ▸ hi)⟩

instance (τ : List (Happening G)) : Decidable (Lossless l τ) :=
  decidable_of_iff (∀ h ∈ τ, ∀ rest ∈ h.lost? l, rest = []) <| by
    simp only [Lossless, Option.mem_def, Happening.lost?_eq_some_iff]
    exact ⟨fun h rest hr => h _ hr rest rfl, fun h i hi rest he => h rest (he ▸ hi)⟩

theorem mem_signs_lost {τ : List (Happening G)} {rest : List (Entry G)} :
    .lost rest ∈ signs l τ ↔ .panicked l rest ∈ τ := by
  unfold signs
  rw [List.mem_filterMap]
  constructor
  · rintro ⟨h, hm, hs⟩
    cases h with
    | panicked l' rest' =>
      by_cases hl : l' = l
      · simp only [Happening.sign?, hl, if_true, Option.some.injEq, Fifo.Sign.lost.injEq] at hs
        exact hl ▸ hs ▸ hm
      · simp [Happening.sign?, hl] at hs
    | _ => simp [Happening.sign?] at hs
  · intro hm
    exact ⟨_, hm, by simp [Happening.sign?]⟩

theorem Steady.signs {τ : List (Happening G)} (h : Steady l τ) :
    ∀ rest, .lost rest ∉ signs l τ :=
  fun rest hr => h rest (mem_signs_lost.mp hr)

theorem Lossless.signs {τ : List (Happening G)} (h : Lossless l τ) :
    ∀ rest, .lost rest ∈ signs l τ → rest = [] :=
  fun rest hr => h rest (mem_signs_lost.mp hr)

theorem steady_append {τ τ' : List (Happening G)} :
    Steady l (τ ++ τ') ↔ Steady l τ ∧ Steady l τ' := by
  simp [Steady, forall_and]

theorem lossless_append {τ τ' : List (Happening G)} :
    Lossless l (τ ++ τ') ↔ Lossless l τ ∧ Lossless l τ' := by
  simp [Lossless, or_imp, forall_and]

theorem entered_not_mem_signs {τ : List (Happening G)} (h : ∀ k, .entered l k ∉ τ) :
    Fifo.Sign.entered ∉ signs l τ := by
  unfold signs
  rw [List.mem_filterMap]
  rintro ⟨h', hm, hs⟩
  cases h' with
  | entered l' k =>
    by_cases hl : l' = l
    · exact h k (hl ▸ hm)
    · simp [Happening.sign?, hl] at hs
  | _ => simp [Happening.sign?] at hs

namespace Machine

variable {code : G.Code} {m m' : Machine G} {τ τ' η : List (Happening G)}

/-- The loop with one queue that loop `l` amounts to. -/
def fifo (m : Machine G) (l : LoopId) : Fifo (Entry G) :=
  (bench m.world m.allJobs l).toFifo

/-- The entries that loop `l` accepted and did not process. -/
def unprocessed (m : Machine G) (l : LoopId) : List (Entry G) :=
  (m.fifo l).queue

theorem fifo_eq (m : Machine G) (l : LoopId) : m.fifo l = (bench m.world m.duties l).toFifo := by
  rw [fifo, bench, bench, duties, batches_filter_isDuty]

theorem phase_fifo_ne_closed (h : m.world.isClosed l = false) : (m.fifo l).phase ≠ .closed := by
  obtain ⟨q, hq, hqc⟩ := isClosed_eq_false h
  simp only [fifo, bench, Bench.toFifo, hq]
  split <;> simp_all

theorem Reached.tidy (h : Reached code τ m) (l : LoopId) : Tidy m.world m.duties l :=
  h.trail.tidy tidy_empty

theorem Reached.fifo (h : Reached code τ m) (l : LoopId) :
    Fifo.Run Fifo.Lossy .unbuilt (signs l τ) (m.fifo l) := by
  rw [fifo_eq]
  exact h.trail.fifo_of_empty

theorem History.fifo (h : History code m τ' m') (hm : Reached code τ m) (l : LoopId) :
    Fifo.Run Fifo.Lossy (m.fifo l) (signs l τ') (m'.fifo l) := by
  rw [fifo_eq, fifo_eq]
  exact (h.course.trail hm.sound).fifo (hm.tidy l)

theorem Acts.fifo (acts : m.Acts η m') (hm : m.Sound) (h : Tidy m.world m.duties l) :
    Fifo.Moves Fifo.Lossy (m.fifo l) (signs l η) (m'.fifo l) ∧ Tidy m'.world m'.duties l := by
  obtain ⟨before, after, others, w, hd, hd', effect, hw⟩ := acts.effect hm
  rw [hd] at h
  have hb := effect.benched h
  obtain ⟨hsame, htidy⟩ := bench_same hb.tidy hw (.refl _)
  rw [fifo_eq, fifo_eq, hd, hd', hsame]
  exact ⟨hb.step.moves, htidy⟩

theorem Switched.fifo (switched : m.Switched m') (h : Tidy m.world m.duties l) :
    m'.fifo l = m.fifo l := by
  rw [fifo_eq, fifo_eq, (bench_same h switched.objects switched.duties).1]

/-- A move is a step of the lossy loop with one queue, or does not concern it. -/
theorem Move.fifo (move : Move code m η m') (hm : Reached code τ m) (l : LoopId) :
    Fifo.Moves Fifo.Lossy (m.fifo l) (signs l η) (m'.fifo l) := by
  have h := hm.tidy l
  cases move with
  | act hi =>
    rcases act_cases code hi with ⟨hη, hs⟩ | hacts | ⟨m₁, hacts, hsw⟩
    · exact .inl ⟨by rw [hη]; rfl, by rw [hs]⟩
    · exact (hacts.fifo hm.sound h).1
    · obtain ⟨hmoves, h₁⟩ := hacts.fifo hm.sound h
      rw [hsw.fifo h₁]
      exact hmoves
  | turnTo hp => exact .inl ⟨rfl, (switched_turnTo hp).fifo h⟩
  | launch _ => exact .inl ⟨rfl, (switched_launch _).fifo h⟩

/-- Between the end of a main future and the beginning of the next nothing is processed. -/
theorem Reached.processedBy_after_ready (hm : Reached code τ m) {τ₁ τ₂ : List (Happening G)}
    (hτ : τ = τ₁ ++ .ready l :: τ₂) (he : ∀ k, .entered l k ∉ τ₂) : processedBy l τ₂ = [] := by
  have run := hm.fifo l
  have hs : signs l τ = (signs l τ₁ ++ [.left]) ++ signs l τ₂ := by
    rw [hτ, signs_append, signs_cons]
    simp [Happening.sign?]
  rw [hs] at run
  obtain ⟨f, run₁, run₂⟩ := run.split
  have hidle : f.phase ≠ .running := by
    rw [run₁.idle_of_left]
    simp
  rw [← filterMap_processed?_signs]
  exact (run₂.waiting hidle (entered_not_mem_signs he)).1

/-- **A loop with batches behaves as a loop with one queue.** Whatever code runs on whatever
threads, a run in which no main future of loop `l` panics is step for step a run of the loop with
one queue. So entries are processed in the order in which they were accepted and none is lost; what
is left unprocessed at any moment, the end of a main future included, is processed first later on,
each entry after exactly those ahead of it; and between the end of a main future and the beginning
of the next nothing is processed. -/
theorem batches_refine_queue (hm : Reached code τ m) (hm' : History code m τ' m') (l : LoopId)
    (steady : Steady l (τ ++ τ')) :
    Fifo.Run Fifo.Step .unbuilt (signs l τ) (m.fifo l) ∧
    (∀ η m₁, Move code m η m₁ → Steady l η →
      Fifo.Moves Fifo.Step (m.fifo l) (signs l η) (m₁.fifo l)) ∧
    processedBy l τ <+: acceptedBy l τ ∧
    (m.world.isClosed l = false → acceptedBy l τ = processedBy l τ ++ m.unprocessed l) ∧
    processedBy l τ' <+: m.unprocessed l ++ acceptedBy l τ' ∧
    (∀ ahead e behind, m.unprocessed l = ahead ++ e :: behind →
      processedBy l τ' <+: ahead ∨ ahead ++ [e] <+: processedBy l τ') ∧
    ∀ τ₁ τ₂, τ = τ₁ ++ .ready l :: τ₂ → (∀ k, .entered l k ∉ τ₂) → processedBy l τ₂ = [] := by
  obtain ⟨hτ, hτ'⟩ := steady_append.mp steady
  have hcalm := hτ.lossless.signs
  have hcalm' := hτ'.lossless.signs
  have run := hm.fifo l
  have run' := hm'.fifo hm l
  have hprefix := run.processed_prefix hcalm
  have hprefix' := run'.processed_prefix hcalm'
  rw [filterMap_accepted?_signs, filterMap_processed?_signs] at hprefix hprefix'
  refine ⟨run.of_lossy hτ.signs, ?_, by simpa [Fifo.unbuilt] using hprefix, ?_, hprefix', ?_, ?_⟩
  · intro η m₁ move hη
    exact Fifo.Lossy.moves (move.fifo hm l) hη.signs
  · intro hopen
    have hb := run.balance (phase_fifo_ne_closed hopen) hcalm
    rw [filterMap_accepted?_signs, filterMap_processed?_signs] at hb
    simpa [Fifo.unbuilt, unprocessed] using hb
  · intro ahead e behind hu
    rw [← filterMap_processed?_signs]
    exact run'.processed_after hcalm' hu
  · intro τ₁ τ₂ hτ he
    exact hm.processedBy_after_ready hτ he

open Script

/-- A main future that is ready while a callback is behind it in its batch, and another one that
runs on the loop after that. -/
def callbackBehindReady : List (String × Statement) :=
  onLoop
    [[line "save_waker" "w" (.saveWaker "w"), line "wake_ref" "w" (.wake "w" false),
        line "call" "h" (.call "h" "cb" [line "log" "ran" .log] none),
        line "yield" "" (.yield 1)],
      [line "yield" "" (.yield 1)]]

/-- The callback that is left behind is what the next main future finds first. -/
theorem batches_refine_queue_of_script :
    Steady ⟨0⟩ ((play callbackBehindReady 38).1 ++
        ((play callbackBehindReady 38).2.record Script.code 38).1) ∧
      Fifo.Run Fifo.Step .unbuilt (signs ⟨0⟩ (play callbackBehindReady 38).1)
        ((play callbackBehindReady 38).2.fifo ⟨0⟩) ∧
      ((play callbackBehindReady 38).2.unprocessed ⟨0⟩).length = 1 ∧
      processedBy ⟨0⟩ ((play callbackBehindReady 38).2.record Script.code 38).1 <+:
        (play callbackBehindReady 38).2.unprocessed ⟨0⟩ ++
          acceptedBy ⟨0⟩ ((play callbackBehindReady 38).2.record Script.code 38).1 := by
  have steady : Steady ⟨0⟩ ((play callbackBehindReady 38).1 ++
      ((play callbackBehindReady 38).2.record Script.code 38).1) := by
    decide +kernel
  have h := batches_refine_queue (reached_play callbackBehindReady 38)
    (history_play callbackBehindReady 38 38) ⟨0⟩ steady
  exact ⟨steady, h.1, by decide +kernel, h.2.2.2.2.1⟩

end Machine

end RunLoop
