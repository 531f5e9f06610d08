import RunLoop.Proofs.Sources
import RunLoop.Proofs.Wakers

/-!
# Transitions that are refused

A transition marks its source before it asks the owning loop to take the hand-off. A loop that is
closed turns the hand-off away, and the mark stays: the source was not completed, and never will be,
but whoever settles it later is told that it was. A source that is left like this is stranded. It
takes a closed loop to strand a source; otherwise the transition that marked it has succeeded, or is
still under way.

* `Stranded` says that a source is marked for nothing.
* `Machine.Reached.outcome_of_mark`: where the hand-off of a marked source is.
* `Machine.Reached.isClosed_of_stranded`: it takes a closed loop to strand a source.
* `Machine.Reached.stranded`: a stranded source stays so, and its cell stays pending.
* `Machine.refused_only_after_mark`: what the answers of a transition say about earlier ones.
-/

namespace RunLoop

variable {G : Guest} {l : LoopId} {c : CellId} {s : SourceId}

section

variable {w w₀ w₁ w' : World G} {D D₀ D₁ others before after : List (Job G)}
  {τ τ' η : List (Happening G)} {x : Source}

/-! ## Where the hand-off of a marked source is -/

/-- A source is marked, though no hand-off of it was accepted or is under way. -/
structure Stranded (τ : List (Happening G)) (D : List (Job G)) (x : Source) : Prop where
  settled : x.settled = true
  accepted : handedOver x.cell τ = []
  pending : handOffs x.cell D = []

/-- A source was marked since by a transition that made a hand-off, unless it was before. -/
theorem Effect.source?_cases (effect : Effect w others before η w' after) {x' : Source}
    (hx : w.source? s = some x) (hx' : w'.source? s = some x') :
    x' = x ∨ ∃ o, η = [.claimed s o] ∧ after = [.handOff x.loop (.settle x.cell o)] ∧
      x.settled = false ∧ x' = { x with settled := true } := by
  cases effect with
  | newSource l =>
    rw [World.source?_newSource, if_neg, hx] at hx'
    · exact .inl (Option.some.inj hx').symm
    · rintro rfl
      simp [World.source?] at hx
  | @claim s' o y hy hs =>
    rw [World.source?_claim, hx] at hx'
    split at hx'
    · rename_i h
      subst h
      cases hy.symm.trans hx
      exact .inr ⟨o, rfl, rfl, hs, (Option.some.inj hx').symm⟩
    · exact .inl (Option.some.inj hx').symm
  | _ => exact .inl (Option.some.inj (hx'.symm.trans hx))

/-- A hand-off comes from a transition that marks its source. -/
theorem Effect.claimed_of_handOff (effect : Effect w others before η w' after) {o : Outcome}
    (h : (l, o) ∈ handOffs c after) :
    ∃ s x, w.source? s = some x ∧ x.settled = false ∧ x.cell = c := by
  cases effect with
  | @claim s o' x hx hs =>
    obtain ⟨hc, _⟩ : x.cell = c ∧ _ := by simpa [Job.handOff?] using h
    exact ⟨s, x, hx, hs, hc⟩
  | _ => simp [Job.handOff?] at h

/-- What is accepted was under way. -/
theorem Effect.handOff_of_accepted (effect : Effect w others before η w' after) {o : Outcome}
    (h : (l, o) ∈ handedOver c η) : (l, o) ∈ handOffs c before := by
  rw [mem_handedOver] at h
  cases effect with
  | handOver =>
    simp only [List.mem_singleton, Happening.accepted.injEq, Entry.call.injEq] at h
    simp [← h.1, ← h.2, Job.handOff?]
  | submit hc =>
    simp only [List.mem_singleton, Happening.accepted.injEq, Entry.call.injEq] at h
    exact absurd h.2.symm (hc _ _)
  | @notify k x => cases ht : x.target <;> simp [ht, Target.entry] at h
  | _ => simp at h

/-- What comes to its loop is accepted, unless the loop is closed. -/
theorem Effect.accepted_of_handOff (effect : Effect w others before η w' after) {o : Outcome}
    (h : (l, o) ∈ handOffs c before) : (l, o) ∈ handedOver c η ∨ w.isClosed l = true := by
  cases effect with
  | @handOver l' cb =>
    cases cb with
    | settle c' o' =>
      left
      simpa [Job.handOff?, Happening.handedOver?] using h
    | _ => simp [Job.handOff?] at h
  | @handBack l' cb ho =>
    cases cb with
    | settle c' o' =>
      obtain ⟨_, rfl, _⟩ : c' = c ∧ l' = l ∧ o' = o := by simpa [Job.handOff?] using h
      exact .inr ho
    | _ => simp [Job.handOff?] at h
  | _ => simp [Job.handOff?] at h

/-- It takes a closed loop to strand a source. -/
theorem Trail.closed_of_stranded (trail₀ : Trail .empty [] τ w₀ D₀) (trail : Trail w₀ D₀ τ' w D)
    {x₀ : Source} (hx₀ : w₀.source? s = some x₀) (hs₀ : x₀.settled = false)
    (hb : (bench w₀ D₀ x₀.loop).toFifo.phase ≠ .unbuilt) (hx : w.source? s = some x)
    (h : Stranded (τ ++ τ') D x) : (bench w D x.loop).toFifo.phase = .closed := by
  induction trail generalizing x with
  | here =>
    cases hx.symm.trans hx₀
    simp [h.settled] at hs₀
  | @same τ' w w' D D' trail hw hD ih =>
    have htidy : Tidy w D x.loop := (trail₀.append trail).tidy tidy_empty
    rw [(bench_same htidy hw hD).1]
    refine ih (by rwa [World.source?, ← hw.sources]) ⟨h.settled, h.accepted, ?_⟩
    exact List.perm_nil.mp (h.pending ▸ hD.filterMap _)
  | @step τ' η w w' others before after trail effect ih =>
    have full := trail₀.append trail
    obtain ⟨x₁, hx₁, hl₁, _⟩ := trail.source? hx₀
    have haccepted := h.accepted
    have hpending := h.pending
    rw [← List.append_assoc, handedOver_append, List.append_eq_nil_iff] at haccepted
    rw [handOffs_append, List.append_eq_nil_iff] at hpending
    rcases effect.source?_cases hx₁ hx with rfl | ⟨o, _, hafter, _, rfl⟩
    · have htidy := full.tidy (l := x.loop) tidy_empty
      have moves := (effect.benched htidy).step.moves
      refine of_not_not fun hc => moves.phase_ne_closed hc ?_
      cases hbefore : handOffs x.cell before with
      | nil =>
        exact ih hx₁ ⟨h.settled, haccepted.1, by rw [handOffs_append, hbefore, hpending.2]; rfl⟩
      | cons p _ =>
        obtain ⟨l, o⟩ := p
        have hm : (l, o) ∈ handOffs x.cell before := by simp [hbefore]
        obtain ⟨rfl, _⟩ := (full.custody.owned s x hx₁).owner l o (by simp [hbefore])
        have hclosed := (effect.accepted_of_handOff hm).resolve_left (by simp [haccepted.2])
        refine htidy.phase_eq_closed ?_ hclosed
        have hbuilt := (trail.fifo (trail₀.tidy tidy_empty)).phase_ne_unbuilt hb
        rwa [hl₁]
    · simp [hafter, Job.handOff?] at hpending

/-- A source that is stranded stays so. -/
theorem Trail.stranded (trail₀ : Trail .empty [] τ w₀ D₀) (trail : Trail w₀ D₀ τ' w D)
    (hx : w₀.source? s = some x) (h : Stranded τ D₀ x) :
    w.source? s = some x ∧ Stranded (τ ++ τ') D x := by
  induction trail with
  | here => exact ⟨hx, by simpa using h⟩
  | same _ hw hD ih =>
    obtain ⟨hx, h⟩ := ih
    refine ⟨by rwa [World.source?, hw.sources], h.settled, h.accepted, ?_⟩
    exact List.nil_perm.mp (h.pending ▸ hD.filterMap _)
  | @step τ' η w w' others before after trail effect ih =>
    obtain ⟨hx, h⟩ := ih
    have full := trail₀.append trail
    have hpending := h.pending
    rw [handOffs_append, List.append_eq_nil_iff] at hpending
    obtain ⟨x', hx', _⟩ := (Trail.step .here effect).source? hx
    obtain rfl : x' = x := by
      rcases effect.source?_cases hx hx' with he | ⟨_, _, _, hs, _⟩
      · exact he
      · simp [h.settled] at hs
    refine ⟨hx', h.settled, ?_, ?_⟩
    · rw [← List.append_assoc, handedOver_append, h.accepted, List.nil_append,
        List.eq_nil_iff_forall_not_mem]
      rintro ⟨l, o⟩ hm
      have hbefore := effect.handOff_of_accepted hm
      simp [hpending.1] at hbefore
    · rw [handOffs_append, hpending.2, List.append_nil, List.eq_nil_iff_forall_not_mem]
      rintro ⟨l, o⟩ hm
      obtain ⟨s', y, hy, hs, hc⟩ := effect.claimed_of_handOff hm
      obtain rfl := full.custody.eq_of_cell hy hx hc
      simp [h.settled] at hs

end

namespace Machine

variable {code : G.Code} {m m₀ m' : Machine G} {τ τ₀ τ' : List (Happening G)} {x x₀ : Source}

theorem handOffs_duties (m : Machine G) : handOffs c m.duties = handOffs c m.allJobs := by
  unfold handOffs duties
  rw [List.filterMap_filter]
  congr 1
  funext i
  cases i <;> rfl

theorem stranded_duties : Stranded τ m.duties x ↔ Stranded τ m.allJobs x :=
  ⟨fun h => ⟨h.settled, h.accepted, handOffs_duties m ▸ h.pending⟩,
    fun h => ⟨h.settled, h.accepted, (handOffs_duties m).trans h.pending⟩⟩

/-! ## The answers of a transition -/

/-- A hand-off that is turned away changes nothing; its callback is dropped, and the answer is on
its way. -/
theorem step_handOff_of_closed {cb : HandOff G} {a : Answer G} {below : List (Job G)}
    (hj : m.jobs = .handOff l cb :: below) (hmode : m.mode = .going a)
    (hc : m.world.isClosed l = true) : ∃ e, m.step code = { m with
      mode := .going .nothing
      jobs :=
        .discard (.call cb) :: .emit e :: .answer (.unit (.error .loopClosed)) :: below } := by
  obtain ⟨w, shared, threads, mode, jobs⟩ := m
  cases hj
  cases hmode
  have hp : w.push? l (.call cb) = none := by
    rw [World.isClosed_eq_isNone_push? w l (.call cb)] at hc
    simpa using hc
  exact ⟨.handOffRejected (w.loopName l) .loopClosed, by
    simp [step, mustWait, perform, handOff, hp, push, insert, go]⟩

/-- The transition that is turned away strands its source. -/
theorem Reached.stranded_of_handOff (hm : Reached code τ m) (hx : m.world.source? s = some x)
    {o : Outcome} {a : Answer G} {below : List (Job G)}
    (hj : m.jobs = .handOff x.loop (.settle x.cell o) :: below) (hmode : m.mode = .going a)
    (hc : m.world.isClosed x.loop = true) :
    claimsOf s τ = [o] ∧ (m.step code).world.source? s = some x ∧
      Stranded τ (m.step code).allJobs x ∧ ∃ e, (m.step code).jobs =
        .discard (.call (.settle x.cell o)) :: .emit e ::
          .answer (.unit (.error .loopClosed)) :: below := by
  obtain ⟨e, hstep⟩ : ∃ e, m.step code = _ := step_handOff_of_closed hj hmode hc
  have howned := hm.custody.owned s x hx
  have htop : handOffs x.cell m.duties =
      (x.loop, o) :: handOffs x.cell (below ++ m.threads.parked.flatMap (·.jobs)) := by
    rw [handOffs_duties, allJobs_of_top hj]
    simp [Job.handOff?]
  have hclaimed : o ∈ claimsOf s τ := (howned.owner x.loop o (by simp [htop])).2
  have hle := howned.length_claimsOf_le
  -- The hand-off is the only one that the mark accounts for.
  have honce := howned.once
  rw [htop, List.length_append, List.length_cons] at honce
  have hsettled : x.settled = true := by
    by_contra hs
    have hnone := howned.claims
    rw [if_neg hs, List.length_eq_zero_iff] at hnone
    simp [hnone] at hclaimed
  refine ⟨eq_singleton_of_mem hclaimed hle, by rw [hstep]; exact hx, ?_, e, by rw [hstep]⟩
  refine ⟨hsettled, List.length_eq_zero_iff.mp (by omega), ?_⟩
  have hrest : handOffs x.cell (below ++ m.threads.parked.flatMap (·.jobs)) = [] :=
    List.length_eq_zero_iff.mp (by omega)
  rw [hstep, allJobs]
  simpa [Job.handOff?] using hrest

/-- The hand-off of a marked source was accepted or is under way, unless the source is stranded. -/
theorem Reached.outcome_of_mark (hm : Reached code τ m) (hx : m.world.source? s = some x)
    (hs : x.settled = true) :
    (∃ o, (x.loop, o) ∈ handedOver x.cell τ) ∨ (∃ o, (x.loop, o) ∈ handOffs x.cell m.allJobs) ∨
      Stranded τ m.allJobs x := by
  have howner := (hm.custody.owned s x hx).owner
  rw [handOffs_duties] at howner
  cases haccepted : handedOver x.cell τ with
  | cons p ps =>
    obtain ⟨l, o⟩ := p
    obtain ⟨rfl, _⟩ := howner l o (by simp [haccepted])
    exact .inl ⟨o, List.mem_cons_self⟩
  | nil =>
    cases hpending : handOffs x.cell m.allJobs with
    | cons p ps =>
      obtain ⟨l, o⟩ := p
      obtain ⟨rfl, _⟩ := howner l o (by simp [hpending])
      exact .inr (.inl ⟨o, List.mem_cons_self⟩)
    | nil => exact .inr (.inr ⟨hs, haccepted, hpending⟩)

/-- A stranded source is never completed. -/
theorem Reached.outcome?_of_stranded (hm : Reached code τ m) (hx : m.world.source? s = some x)
    (h : Stranded τ m.allJobs x) : m.world.outcome? x.cell = none := by
  cases ho : m.world.outcome? x.cell with
  | none => rfl
  | some o =>
    have haccepted := (hm.outcome hx ho).2.1
    simp [h.accepted] at haccepted

/-- Where a source is stranded, its loop is closed. -/
theorem Reached.isClosed_of_stranded (hm₀ : Reached code τ₀ m₀) (hm : History code m₀ τ m)
    (hx₀ : m₀.world.source? s = some x₀) (hs₀ : x₀.settled = false)
    (hl₀ : (m₀.world.loop? x₀.loop).isSome = true) (hx : m.world.source? s = some x)
    (h : Stranded (τ₀ ++ τ) m.allJobs x) : m.world.isClosed x.loop = true := by
  have trail := hm.course.trail hm₀.sound
  exact isClosed_of_phase (hm₀.trail.closed_of_stranded trail hx₀ hs₀ (phase_of_loop hl₀) hx
    (stranded_duties.mpr h))

/-- A source that is stranded stays so, and its cell stays pending. -/
theorem Reached.stranded (hm : Reached code τ m) (hm' : History code m τ' m')
    (hx : m.world.source? s = some x) (h : Stranded τ m.allJobs x) :
    m'.world.source? s = some x ∧ Stranded (τ ++ τ') m'.allJobs x ∧
      m'.world.outcome? x.cell = none := by
  have trail := hm'.course.trail hm.sound
  obtain ⟨hx', hduties⟩ := hm.trail.stranded trail hx (stranded_duties.mpr h)
  have h' := stranded_duties.mp hduties
  exact ⟨hx', h', (hm.append hm').outcome?_of_stranded hx' h'⟩

/-- **What the answers of a transition say.** Let a source be unmarked, its loop be there, and the
run go on. The source is marked by the first transition, which is the only one that goes on to its
hand-off, and so at most one transition ever succeeds. A transition of a source that is marked
already hands nothing over and changes nothing; its answer is that the source was completed. This is
answered only if an earlier transition has marked the source, and then that one has succeeded, or is
between its two halves, or the loop is closed. The hand-off succeeds as long as the loop is open. If
the loop is closed, the answer is that it is, and the source is stranded: it stays marked, no
transition of it ever succeeds, its cell stays pending. -/
theorem refused_only_after_mark (hm₀ : Reached code τ₀ m₀) (hm : History code m₀ τ m)
    (hx₀ : m₀.world.source? s = some x₀) (hs₀ : x₀.settled = false)
    (hl₀ : (m₀.world.loop? x₀.loop).isSome = true) :
    ∃ x, m.world.source? s = some x ∧ x.loop = x₀.loop ∧ x.cell = x₀.cell ∧
      (claimsOf s (τ₀ ++ τ)).length = (if x.settled then 1 else 0) ∧
      (handedOver x.cell (τ₀ ++ τ)).length ≤ 1 ∧
      (∀ o a below, m.jobs = .serve (.settle s o) :: below → m.mode = .going a →
        (x.settled = false → m.happenings = [.claimed s o] ∧
          (m.step code).jobs = .handOff x.loop (.settle x.cell o) :: below) ∧
        (x.settled = true → m.happenings = [.refused s o] ∧
          (m.step code).mode = .going (.unit (.error .alreadyCompleted)) ∧
          (m.step code).jobs = below ∧ m.world.Agrees (m.step code).world) ∧
        ((m.step code).mode = .going (.unit (.error .alreadyCompleted)) →
          x.settled = true ∧ m.world.Agrees (m.step code).world ∧
            ((∃ o', (x.loop, o') ∈ handedOver x.cell (τ₀ ++ τ)) ∨
              (∃ o', (x.loop, o') ∈ handOffs x.cell m.allJobs) ∨
              m.world.isClosed x.loop = true ∧ Stranded (τ₀ ++ τ) m.allJobs x))) ∧
      (∀ o a below, m.jobs = .handOff x.loop (.settle x.cell o) :: below → m.mode = .going a →
        m.world.isClosed x.loop = false ∧
            m.happenings = [.accepted x.loop (.call (.settle x.cell o))] ∧
            (m.step code).mode = .going (.unit (.ok ())) ∧ (m.step code).jobs = below ∨
          m.world.isClosed x.loop = true ∧ claimsOf s (τ₀ ++ τ) = [o] ∧
            (m.step code).world.source? s = some x ∧
            Stranded (τ₀ ++ τ) (m.step code).allJobs x ∧
            ∃ e, (m.step code).jobs = .discard (.call (.settle x.cell o)) :: .emit e ::
              .answer (.unit (.error .loopClosed)) :: below) ∧
      (Stranded (τ₀ ++ τ) m.allJobs x → ∀ τ' m', History code m τ' m' →
        m'.world.source? s = some x ∧ Stranded (τ₀ ++ τ ++ τ') m'.allJobs x ∧
          m'.world.outcome? x.cell = none) := by
  have hreached := hm₀.append hm
  obtain ⟨x, hx, hl, hc⟩ := (hm.course.trail hm₀.sound).source? hx₀
  have howned := hreached.custody.owned s x hx
  refine ⟨x, hx, hl, hc, howned.claims, howned.length_handedOver_le, ?_, ?_, ?_⟩
  · intro o a below hj hmode
    have first : x.settled = false → m.happenings = [.claimed s o] ∧
        (m.step code).mode = .going .nothing ∧
        (m.step code).jobs = .handOff x.loop (.settle x.cell o) :: below :=
      step_settle_of_unsettled hj hmode hx
    have late : x.settled = true → m.happenings = [.refused s o] ∧
        (m.step code).mode = .going (.unit (.error .alreadyCompleted)) ∧
        (m.step code).jobs = below ∧ m.world.Agrees (m.step code).world :=
      step_settle_of_settled hj hmode hx
    refine ⟨fun hs => ⟨(first hs).1, (first hs).2.2⟩, late, fun hanswer => ?_⟩
    have hs : x.settled = true := by
      by_contra hs
      obtain ⟨_, hnothing, _⟩ := first (by simpa using hs)
      cases hnothing.symm.trans hanswer
    refine ⟨hs, (late hs).2.2.2, ?_⟩
    exact (hreached.outcome_of_mark hx hs).imp_right
      (.imp_right fun h => ⟨hm₀.isClosed_of_stranded hm hx₀ hs₀ hl₀ hx h, h⟩)
  · intro o a below hj hmode
    cases hclosed : m.world.isClosed x.loop with
    | true => exact .inr ⟨rfl, hreached.stranded_of_handOff hx hj hmode hclosed⟩
    | false =>
      have hη : m.happenings = [.accepted x.loop (.call (.settle x.cell o))] := by
        simp [happenings, hj, hmode, performed, handed, hclosed]
      exact .inl ⟨rfl, (step_handOff hj hmode).resolve_right (by simp [hη])⟩
  · exact fun h τ' m' hm' => hreached.stranded hm' hx h

open Script

/-- The transition that comes next, if one does. -/
def settling? (m : Machine G) : Option (SourceId × Outcome) :=
  match m.jobs, m.mode with
  | .serve (.settle s o) :: _, .going _ => some (s, o)
  | _, _ => none

theorem jobs_of_settling {o : Outcome} (h : m.settling? = some (s, o)) : ∃ a below,
    m.jobs = .serve (.settle s o) :: below ∧ m.mode = .going a := by
  unfold settling? at h
  split at h
  · rename_i hj hmode
    cases h
    exact ⟨_, _, hj, hmode⟩
  · cases h

/-- Whether the answer comes next that a loop is closed. -/
def answersClosed (m : Machine G) : Bool :=
  match m.jobs with
  | .answer (.unit (.error .loopClosed)) :: _ => true
  | _ => false

theorem jobs_of_answersClosed (h : m.answersClosed = true) :
    ∃ below, m.jobs = .answer (.unit (.error .loopClosed)) :: below := by
  unfold answersClosed at h
  split at h
  · exact ⟨_, by assumption⟩
  · cases h

/-- A source is settled twice when its loop has been dropped. -/
def settledAfterDrop : List (String × Statement) :=
  [("loop", line "loop" "L" (.loop "L" none none none false)),
    ("handle", line "handle" "h" (.handle "h" "L")),
    ("source", line "source" "s" (.source "s" (some "h"))),
    ("drop_loop", line "drop_loop" "L" (.dropLoop "L")),
    ("set_result", line "set_result" "s" (.settle "s" (.completed .null))),
    ("set_cancelled", line "set_cancelled" "s" (.settle "s" .cancelled))]

/-- When the second of the two transitions is told that the source was completed already, the loop
is closed and the source stranded. -/
theorem refused_only_after_mark_of_script : ∃ a o below,
    ((play settledAfterDrop 31).2.record Script.code 11).2.jobs =
        .serve (.settle ⟨0⟩ o) :: below ∧
      ((play settledAfterDrop 31).2.record Script.code 11).2.mode = .going a ∧
      (((play settledAfterDrop 31).2.record Script.code 11).2.step Script.code).mode =
        .going (.unit (.error .alreadyCompleted)) ∧
      ((play settledAfterDrop 31).2.record Script.code 11).2.world.isClosed ⟨0⟩ = true ∧
      Stranded ((play settledAfterDrop 31).1 ++
          ((play settledAfterDrop 31).2.record Script.code 11).1)
        ((play settledAfterDrop 31).2.record Script.code 11).2.allJobs ⟨⟨0⟩, ⟨0⟩, true⟩ := by
  have hx₀ : (play settledAfterDrop 31).2.world.source? ⟨0⟩ = some ⟨⟨0⟩, ⟨0⟩, false⟩ := by
    decide +kernel
  have hx : ((play settledAfterDrop 31).2.record Script.code 11).2.world.source? ⟨0⟩ =
      some ⟨⟨0⟩, ⟨0⟩, true⟩ := by
    decide +kernel
  have hnext : ((play settledAfterDrop 31).2.record Script.code 11).2.settling?.any
      (fun p => p.1 = ⟨0⟩) = true := by
    decide +kernel
  obtain ⟨⟨s, o⟩, hsettling, hs⟩ := Option.any_eq_true _ _ |>.mp hnext
  obtain rfl : s = ⟨0⟩ := by simpa using hs
  obtain ⟨a, below, hj, hmode⟩ := jobs_of_settling hsettling
  obtain ⟨x, hx', _, _, _, _, h, _⟩ := refused_only_after_mark (reached_play settledAfterDrop 31)
    (history_play settledAfterDrop 31 11) hx₀ rfl (by decide +kernel)
  cases hx.symm.trans hx'
  obtain ⟨_, late, refused⟩ := h o a below hj hmode
  have hanswer := (late rfl).2.1
  obtain ⟨_, _, haccepted | hpending | hstranded⟩ := refused hanswer
  · have hnone : handedOver ⟨0⟩ ((play settledAfterDrop 31).1 ++
        ((play settledAfterDrop 31).2.record Script.code 11).1) = [] :=
      List.length_eq_zero_iff.mp (by decide +kernel)
    simp [hnone] at haccepted
  · have hnone : handOffs ⟨0⟩
        ((play settledAfterDrop 31).2.record Script.code 11).2.allJobs = [] :=
      List.length_eq_zero_iff.mp (by decide +kernel)
    simp [hnone] at hpending
  · exact ⟨a, o, below, hj, hmode, hanswer, hstranded⟩

/-- A source is settled when its loop is closed. The answer is that the loop is closed, but the
source is marked now, and the next transition is told that it was completed, though none has
succeeded. -/
theorem already_completed_without_completion :
    ∃ (τ₀ τ₁ τ₂ : List (Happening guest)) (m₀ m₁ m₂ : Machine guest) (s : SourceId) (x : Source)
      (o₀ o₂ : Outcome),
      Reached Script.code τ₀ m₀ ∧ m₀.settling? = some (s, o₀) ∧ m₀.world.source? s = some x ∧
        x.settled = false ∧ m₀.world.isClosed x.loop = true ∧
      History Script.code m₀ τ₁ m₁ ∧
        (∃ below, m₁.jobs = .answer (.unit (.error .loopClosed)) :: below) ∧
      History Script.code m₁ τ₂ m₂ ∧ m₂.settling? = some (s, o₂) ∧
        m₂.world.source? s = some { x with settled := true } ∧
        (m₂.step Script.code).mode = .going (.unit (.error .alreadyCompleted)) ∧
      handedOver x.cell (τ₀ ++ τ₁ ++ τ₂) = [] := by
  have hfirst : (play settledAfterDrop 31).2.settling?.any (fun p => p.1 = ⟨0⟩) = true := by
    decide +kernel
  have hsecond : (((play settledAfterDrop 31).2.record Script.code 4).2.record
      Script.code 7).2.settling?.any (fun p => p.1 = ⟨0⟩) = true := by
    decide +kernel
  have hx : (((play settledAfterDrop 31).2.record Script.code 4).2.record
      Script.code 7).2.world.source? ⟨0⟩ = some ⟨⟨0⟩, ⟨0⟩, true⟩ := by
    decide +kernel
  obtain ⟨⟨s, o₀⟩, h₀, hs⟩ := Option.any_eq_true _ _ |>.mp hfirst
  obtain rfl : s = ⟨0⟩ := by simpa using hs
  obtain ⟨⟨s, o₂⟩, h₂, hs⟩ := Option.any_eq_true _ _ |>.mp hsecond
  obtain rfl : s = ⟨0⟩ := by simpa using hs
  obtain ⟨a, below, hj, hmode⟩ := jobs_of_settling h₂
  refine ⟨_, _, _, _, _, _, ⟨0⟩, ⟨⟨0⟩, ⟨0⟩, false⟩, o₀, o₂, reached_play settledAfterDrop 31, h₀,
    by decide +kernel, rfl, by decide +kernel, history_play settledAfterDrop 31 4,
    jobs_of_answersClosed (by decide +kernel), history_record Script.code _ 7, h₂, hx, ?_, ?_⟩
  · exact (step_settle_of_settled hj hmode hx rfl).2.1
  · exact List.length_eq_zero_iff.mp (by decide +kernel)

end Machine

end RunLoop
