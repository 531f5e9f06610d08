import RunLoop.Proofs.Play
import RunLoop.Proofs.Sources
import RunLoop.Proofs.Wakers

/-!
# A panic of the main future

A main future that panics takes the rest of its batch with it: the entries behind the one at which
it was polled are dropped unprocessed, although they were accepted. What was not taken out of the
queue yet stays there. So the panic leaves the loop intact exactly if no batch is behind it, as at
the first poll. Where something is lost, a callback is dropped unrun, a marked waker has no entry
that takes its mark away, or a transition that succeeded never reaches its cell.

* `Machine.mainPanic?` tells when a panic has come to the end of a main future.
* `Machine.Reached.unprocessed_after_panic` says what is left of the work of the loop.
* `Machine.Reached.lossless_iff`: nothing that was accepted is missing exactly if nothing was lost.
-/

namespace RunLoop

/-- Whether an entry is a callback of the guest. -/
def Entry.isOwn {G : Guest} : Entry G → Bool
  | call (.own _) => true
  | _ => false

namespace Machine

variable {G : Guest} {code : G.Code} {m m' : Machine G} {τ τ' : List (Happening G)} {l : LoopId}
  {batch : List (Entry G)}

/-! ## The panic -/

/-- The loop whose main future is taken off the stack by a panic, with the rest of its batch. -/
def mainPanic? (m : Machine G) : Option (LoopId × List (Entry G)) :=
  match m.jobs, m.mode with
  | .mainPolled l _ batch :: _, .unwinding _ _ => some (l, batch)
  | _, _ => none

theorem jobs_of_mainPanic (h : m.mainPanic? = some (l, batch)) : ∃ k below p r,
    m.jobs = .mainPolled l k batch :: below ∧ m.mode = .unwinding p r := by
  unfold mainPanic? at h
  split at h
  · rename_i hj hmode
    cases h
    exact ⟨_, _, _, _, hj, hmode⟩
  · cases h

/-- Until then, the rest of the batch comes first. -/
theorem unprocessed_of_mainPanic (h : m.mainPanic? = some (l, batch)) :
    m.unprocessed l = batch ++ m.world.queued l := by
  obtain ⟨k, below, p, r, hj, _⟩ := jobs_of_mainPanic h
  simp [unprocessed, fifo, bench, Bench.toFifo, allJobs, hj, Job.batch?, World.queued]

theorem move_of_mainPanic (code : G.Code) (h : m.mainPanic? = some (l, batch)) :
    Move code m [.panicked l batch] (m.step code) := by
  obtain ⟨k, below, p, r, hj, hmode⟩ := jobs_of_mainPanic h
  have hη : m.happenings = [.panicked l batch] := by simp [happenings, hj, hmode]
  rw [← hη]
  exact .act (by simp [isIdle, hj, hmode])

/-- The panic leaves the loop idle, with what was in the queue. -/
theorem Reached.fifo_mainPanic (hm : Reached code τ m) (h : m.mainPanic? = some (l, batch)) :
    (m.step code).fifo l = ⟨.idle, m.world.queued l⟩ := by
  have moves := (move_of_mainPanic code h).fifo hm l
  have hqueue : (m.fifo l).queue = batch ++ m.world.queued l := unprocessed_of_mainPanic h
  simp only [signs_cons, Happening.sign?, if_true, signs_nil, Option.toList_some,
    List.append_nil] at moves
  rcases moves with ⟨hs, _⟩ | ⟨s, hs, step⟩
  · cases hs
  · cases List.cons.inj hs |>.1
    generalize m.fifo l = f, (m.step code).fifo l = f' at step hqueue
    cases step with
    | step step => cases step
    | lose =>
      rw [List.append_cancel_left hqueue]

/-- After the panic, until the next main future begins to run, the loop has what was in the queue,
and behind it what it accepted since. -/
theorem Reached.unprocessed_after_panic (hm : Reached code τ m)
    (h : m.mainPanic? = some (l, batch)) (hm' : History code (m.step code) τ' m')
    (he : ∀ k, .entered l k ∉ τ') (hopen : m'.world.isClosed l = false) :
    m'.unprocessed l = m.world.queued l ++ acceptedBy l τ' := by
  have run := hm'.fifo (hm.next (move_of_mainPanic code h)) l
  rw [hm.fifo_mainPanic h] at run
  have hwait := run.waiting (by simp) (entered_not_mem_signs he)
  rw [filterMap_accepted?_signs] at hwait
  exact hwait.2.2 (phase_fifo_ne_closed hopen)

/-! ## What is missing -/

/-- Whatever an open loop accepted is processed or unprocessed, exactly if nothing was lost. -/
theorem Reached.lossless_iff (hm : Reached code τ m) (hopen : m.world.isClosed l = false) :
    Lossless l τ ↔ acceptedBy l τ = processedBy l τ ++ m.unprocessed l := by
  have hb := (hm.fifo l).balance_iff (phase_fifo_ne_closed hopen)
  rw [filterMap_accepted?_signs, filterMap_processed?_signs] at hb
  simp only [Fifo.unbuilt, List.nil_append, mem_signs_lost] at hb
  exact hb.symm

/-- Where nothing was lost, a task whose waker is marked has an entry, or is about to have one. -/
theorem Reached.mem_unprocessed_of_notified (hm : Reached code τ m) (lossless : Lossless l τ)
    (hopen : m.world.isClosed l = false) {slot : Nat} {k : WakerId}
    {work : Option (Work G.Coroutine)} (hw : m.world.task? l slot = some ⟨k, work⟩)
    (hn : m.world.notified k = true) :
    .wake slot ∈ m.unprocessed l ∨ .notify k ∈ m.allJobs := by
  have hphase := phase_fifo_ne_closed hopen
  rw [unprocessed]
  rw [fifo_eq] at hphase ⊢
  exact (hm.trail.heeded lossless hphase k (.task slot) ⟨work, hw⟩ hn).imp_right
    fun h => (List.mem_filter.mp h).1

/-- Where nothing was lost, an accepted hand-off has reached its cell, or is still to be
processed. -/
theorem Reached.outcome_or_mem_unprocessed (hm : Reached code τ m) {s : SourceId} {x : Source}
    (hx : m.world.source? s = some x) (lossless : Lossless x.loop τ)
    (hopen : m.world.isClosed x.loop = false) {o : Outcome}
    (ha : .accepted x.loop (.call (.settle x.cell o)) ∈ τ) :
    m.world.outcome? x.cell = some o ∨ .call (.settle x.cell o) ∈ m.unprocessed x.loop := by
  have hmem := mem_acceptedBy.mpr ha
  rw [(hm.lossless_iff hopen).mp lossless, List.mem_append] at hmem
  refine hmem.imp_left fun hp => ?_
  have hdone := mem_carriedOut.mpr (mem_processedBy.mp hp)
  rw [(hm.custody.owned s x hx).outcome] at hdone
  simpa using hdone

/-- **A panic of the main future drops the rest of its batch.** Once it is over, and until the next
main future begins to run, an open loop has what was in its queue, followed by what it accepted
since. So nothing is missing exactly if the batch was at its end; over a whole run, whatever was
accepted is processed or still queued exactly if this was so at every panic. And if it was so, no
task is marked without an entry, and every transition that succeeded reaches its cell. -/
theorem main_panic_drops_batch (hm : Reached code τ m) (l : LoopId) :
    (∀ batch, m.mainPanic? = some (l, batch) → ∀ τ' m', History code (m.step code) τ' m' →
      (∀ k, .entered l k ∉ τ') → m'.world.isClosed l = false →
      m'.unprocessed l = m.world.queued l ++ acceptedBy l τ' ∧
        (m'.unprocessed l = m.unprocessed l ++ acceptedBy l τ' ↔ batch = [])) ∧
    (m.world.isClosed l = false →
      (Lossless l τ ↔ acceptedBy l τ = processedBy l τ ++ m.unprocessed l)) ∧
    (m.world.isClosed l = false → Lossless l τ →
      (∀ slot k work, m.world.task? l slot = some ⟨k, work⟩ → m.world.notified k = true →
        .wake slot ∈ m.unprocessed l ∨ .notify k ∈ m.allJobs) ∧
      ∀ s x o, m.world.source? s = some x → x.loop = l →
        .accepted l (.call (.settle x.cell o)) ∈ τ →
        m.world.outcome? x.cell = some o ∨ .call (.settle x.cell o) ∈ m.unprocessed l) := by
  refine ⟨?_, fun hopen => hm.lossless_iff hopen, fun hopen lossless => ⟨?_, ?_⟩⟩
  · intro batch h τ' m' hm' he hopen
    have hleft := hm.unprocessed_after_panic h hm' he hopen
    refine ⟨hleft, ?_⟩
    rw [hleft, unprocessed_of_mainPanic h, List.append_assoc]
    exact ⟨fun e => by simpa using e.symm, fun e => by simp [e]⟩
  · exact fun slot k work hw hn => hm.mem_unprocessed_of_notified lossless hopen hw hn
  · rintro s x o hx rfl ha
    exact hm.outcome_or_mem_unprocessed hx lossless hopen ha

/-! ## A callback that is lost -/

open Script

/-- The main future is woken, has its loop accept a callback, and panics when it is polled again:
then the callback is behind it in its batch. Another main future runs on the loop after that. -/
def callbackBehindPanic : List (String × Statement) :=
  onLoop
    [[line "save_waker" "w" (.saveWaker "w"), line "wake_ref" "w" (.wake "w" false),
        line "call" "h" (.call "h" "cb" [line "log" "ran" .log] none),
        line "yield" "" (.yield 1), line "panic" "" (.panic (.text "boom"))],
      [line "yield" "" (.yield 2)]]

/-- The panic has come, with something behind it. -/
theorem mainPanic_callbackBehindPanic : ∃ batch,
    (play callbackBehindPanic 38).2.mainPanic? = some (⟨0⟩, batch) ∧ batch ≠ [] := by
  have h : (play callbackBehindPanic 38).2.mainPanic?.any
      (fun x => x.1 = ⟨0⟩ && !x.2.isEmpty) = true := by
    decide +kernel
  obtain ⟨⟨l, batch⟩, hpanic, hx⟩ := Option.any_eq_true _ _ |>.mp h
  simp only [Bool.and_eq_true, decide_eq_true_eq, Bool.not_eq_true', List.isEmpty_eq_false_iff]
    at hx
  exact ⟨batch, hx.1 ▸ hpanic, hx.2⟩

theorem main_panic_drops_batch_of_script :
    ∃ batch, (play callbackBehindPanic 38).2.mainPanic? = some (⟨0⟩, batch) ∧ batch ≠ [] ∧
      ((play callbackBehindPanic 38).2.step Script.code).unprocessed ⟨0⟩ ≠
        (play callbackBehindPanic 38).2.unprocessed ⟨0⟩ := by
  obtain ⟨batch, hpanic, hne⟩ := mainPanic_callbackBehindPanic
  have hm := reached_play callbackBehindPanic 38
  have hopen : ((play callbackBehindPanic 38).2.step Script.code).world.isClosed ⟨0⟩ = false := by
    decide +kernel
  have hleft := (main_panic_drops_batch hm ⟨0⟩).1 batch hpanic [] _ .here (by simp) hopen
  exact ⟨batch, hpanic, hne, by simpa using mt hleft.2.mp hne⟩

/-- A panic of the main future does not leave the loop intact: an entry is gone after it, and later,
when the loop lives and has nothing left to do, a callback that was accepted has not been run. -/
theorem main_panic_loses_callback :
    (∃ (τ : List (Happening guest)) (m : Machine guest) (l : LoopId) (batch : List (Entry guest)),
      Reached Script.code τ m ∧ m.mainPanic? = some (l, batch) ∧
        (m.step Script.code).world.isClosed l = false ∧
        (m.step Script.code).unprocessed l ≠ m.unprocessed l) ∧
    ∃ (τ : List (Happening guest)) (m : Machine guest) (l : LoopId), Reached Script.code τ m ∧
      m.world.isClosed l = false ∧ m.unprocessed l = [] ∧
        (∃ e ∈ acceptedBy l τ, e.isOwn = true) ∧ ∀ e ∈ processedBy l τ, e.isOwn = false := by
  constructor
  · obtain ⟨batch, hpanic, hne⟩ := mainPanic_callbackBehindPanic
    refine ⟨_, _, ⟨0⟩, batch, reached_play callbackBehindPanic 38, hpanic, by decide +kernel, ?_⟩
    refine fun he => hne ?_
    have hlen : ((play callbackBehindPanic 38).2.step Script.code).unprocessed ⟨0⟩ = [] := by
      decide +kernel
    rw [hlen, unprocessed_of_mainPanic hpanic] at he
    exact (List.append_eq_nil_iff.mp he.symm).1
  · exact ⟨_, _, ⟨0⟩, reached_play callbackBehindPanic 80, by decide +kernel⟩

end Machine

end RunLoop
