import RunLoop.Proofs.PendingWakes

/-!
# Marks pay for entries

A waker is marked before it queues its target, and it is no longer marked once the target is polled.
But an entry does not say by which waker it was queued: whoever is the target when the entry is
processed is polled, and the mark that is taken away then is its own. Still, every entry of a target
is paid for by the mark of some waker that was ever made for the target: there are never more of
them, those that threads are about to queue included, than such wakers are marked.

* `World.marks` counts the marked wakers of a target.
* `onTheWay` counts what is about to lead to polls of a target.
* `Effect.covers`: what an effect adds to it, and the polls of unmarked wakers, come out of marks.
* `Trail.onTheWay_le` is what follows for a run.
-/

namespace RunLoop

variable {G : Guest} {l l' : LoopId} {k : WakerId} {t t' : Target}

/-- A waker of target `t` of loop `l`. -/
def Waker.isOf (l : LoopId) (t : Target) (x : Waker) : Bool :=
  x.loop = l && x.target = t

/-- How many marked wakers target `t` of loop `l` has, of all that were ever made for it. -/
def World.marks (w : World G) (l : LoopId) (t : Target) : Nat :=
  w.wakers.toList.countP (fun x => x.isOf l t && x.notified)

/-- Whether an entry is for a target. -/
def Entry.isFor : Target → Entry G → Bool
  | .task slot, wake slot' => slot' = slot
  | .main, main => true
  | _, _ => false

/-- The target that is queued next is `t` of loop `l`. -/
def Job.notifies (w : World G) (l : LoopId) (t : Target) : Job G → Bool
  | notify k => (w.waker? k).any (fun x => x.loop = l && x.target = t)
  | _ => false

/-- Target `t` of loop `l` is polled, though its waker is not marked. -/
def Happening.isUnasked (w : World G) (l : LoopId) (t : Target) : Happening G → Bool
  | polled k => (w.waker? k).any (fun x => x.isOf l t && !x.notified)
  | _ => false

/-- What is about to lead to polls of target `t` of loop `l`: its entries, and those that threads
are about to queue. -/
def onTheWay (w : World G) (D : List (Job G)) (l : LoopId) (t : Target) : Nat :=
  (bench w D l).toFifo.queue.countP (Entry.isFor t) + D.countP (Job.notifies w l t)

theorem Entry.isFor_iff {e : Entry G} : e.isFor t = true ↔ e = t.entry := by
  cases t <;> cases e <;> simp [isFor, Target.entry]

theorem Entry.isFor_entry : (t'.entry : Entry G).isFor t = decide (t' = t) := by
  cases t <;> cases t' <;> simp [Target.entry, isFor]

/-! ## Counting marks -/

/-- What is counted in an array changes with the element that is modified. -/
theorem countP_modify {α : Type} (p : α → Bool) (xs : Array α) (i : Nat) (f : α → α) {x : α}
    (h : xs[i]? = some x) :
    (xs.modify i f).toList.countP p + (if p x then 1 else 0) =
      xs.toList.countP p + (if p (f x) then 1 else 0) := by
  obtain ⟨hi, hx⟩ := Array.getElem?_eq_some_iff.mp h
  have hi' : i < xs.toList.length := by simpa using hi
  have hx' : xs.toList[i] = x := by simpa using hx
  have hsplit : xs.toList = xs.toList.take i ++ x :: xs.toList.drop (i + 1) := by
    rw [← hx', List.getElem_cons_drop, List.take_append_drop]
  rw [Array.toList_modify, List.modify_eq_take_cons_drop hi', hx']
  conv_rhs => rw [hsplit]
  simp only [List.countP_append, List.countP_cons]
  omega

namespace World

variable {w : World G} {x : Waker}

theorem marks_mark (hx : w.waker? k = some x) (hn : x.notified = false) :
    (w.mark k).1.marks l t = w.marks l t + if x.isOf l t then 1 else 0 := by
  have h := countP_modify (fun x => x.isOf l t && x.notified) w.wakers k.index
    (fun x => { x with notified := true }) hx
  simpa [hn, Waker.isOf, marks, mark] using h

theorem marks_marked (hx : w.waker? k = some x) (hn : x.notified = true) :
    (w.mark k).1.marks l t = w.marks l t := by
  have h := countP_modify (fun x => x.isOf l t && x.notified) w.wakers k.index
    (fun x => { x with notified := true }) hx
  simpa [hn, Waker.isOf, marks, mark] using h

theorem marks_rearm (hx : w.waker? k = some x) :
    (w.rearm k).marks l t + (if x.isOf l t && x.notified then 1 else 0) = w.marks l t := by
  have h := countP_modify (fun x => x.isOf l t && x.notified) w.wakers k.index
    (fun x => { x with notified := false }) hx
  simpa [marks, rearm] using h

theorem marks_newWaker (l' : LoopId) (t' : Target) :
    (w.newWaker l' t').1.marks l t = w.marks l t := by
  simp [marks, newWaker]

theorem marks_addTask (l' : LoopId) (kind : Kind) (f : Future G.Coroutine) :
    (w.addTask l' kind f).1.marks l t = w.marks l t := by
  obtain ⟨e, he⟩ := addTask_eq w l' kind f
  rw [he]
  exact marks_newWaker l' _

theorem exists_marked (h : 0 < w.marks l t) : ∃ k, w.waker? k = some ⟨l, t, true⟩ := by
  obtain ⟨⟨l', t', b⟩, hx, hm⟩ := List.countP_pos_iff.mp h
  obtain ⟨i, hi⟩ := List.mem_iff_getElem?.mp hx
  obtain ⟨⟨rfl, rfl⟩, rfl⟩ : (l' = l ∧ t' = t) ∧ b = true := by
    simpa [Waker.isOf] using hm
  exact ⟨⟨i⟩, by simpa [waker?] using hi⟩

end World

section

variable {w w' : World G} {D D' others before after : List (Job G)} {τ η : List (Happening G)}

/-- Whoever is about to be queued has a waker. -/
theorem Trail.isSome_of_notify (trail : Trail .empty [] τ w D) (h : .notify k ∈ D) :
    (w.waker? k).isSome = true := by
  induction trail with
  | here => simp at h
  | same _ hw hD ih =>
    rw [waker?_same hw]
    exact ih (hD.mem_iff.mpr h)
  | step trail effect ih =>
    rcases List.mem_append.mp h with hb | ho
    · refine effect.isSome_waker? ?_
      cases effect with
      | mark hx =>
        obtain rfl : k = _ := by simpa using hb
        simp [hx]
      | _ => simp at hb
    · exact effect.isSome_waker? (ih (List.mem_append_right _ ho))

/-- Nothing that an effect processes or leaves in the queue comes from nowhere. -/
theorem Effect.countP_queue_le (effect : Effect w others before η w' after)
    (h : Tidy w (before ++ others) l) (p : Entry G → Bool) :
    (processedBy l η).countP p + (bench w' (after ++ others) l).toFifo.queue.countP p ≤
      (bench w (before ++ others) l).toFifo.queue.countP p + (acceptedBy l η).countP p := by
  have hcount := (Fifo.Run.here.moves (effect.benched h).step.moves).countP_le p
  rwa [List.nil_append, filterMap_accepted?_signs, filterMap_processed?_signs] at hcount

/-! ## The account -/

/-- What an effect adds to what is about to lead to polls of target `t`, and the polls of it that
its waker was not marked for, come out of marks, and of entries that are processed. -/
def Covers (l : LoopId) (t : Target) (w : World G) (before : List (Job G))
    (η : List (Happening G)) (w' : World G) (after : List (Job G)) : Prop :=
  η.countP (Happening.isUnasked w l t) + (acceptedBy l η).countP (Entry.isFor t) +
      after.countP (Job.notifies w' l t) + w.marks l t ≤
    (processedBy l η).countP (Entry.isFor t) + before.countP (Job.notifies w l t) +
      w'.marks l t

theorem countP_notifies_eq_zero (h : ∀ k, .notify k ∉ D) :
    D.countP (Job.notifies w l t) = 0 := by
  refine List.countP_eq_zero.mpr fun job hj => ?_
  cases job with
  | notify k => exact absurd hj (h k)
  | _ => simp [Job.notifies]

theorem countP_isFor_acceptedBy_eq_zero (h : .accepted l t.entry ∉ η) :
    (acceptedBy l η).countP (Entry.isFor t) = 0 := by
  refine List.countP_eq_zero.mpr fun e he hfor => h ?_
  exact mem_acceptedBy.mp (Entry.isFor_iff.mp hfor ▸ he)

theorem countP_isUnasked_eq_zero (h : ∀ k, .polled k ∉ η) :
    η.countP (Happening.isUnasked w l t) = 0 := by
  refine List.countP_eq_zero.mpr fun i hi => ?_
  cases i with
  | polled k => exact absurd hi (h k)
  | _ => simp [Happening.isUnasked]

/-- Nobody is polled, and targets are neither queued nor marked. -/
theorem covers_frame (hp : η.countP (Happening.isUnasked w l t) = 0)
    (ha : .accepted l t.entry ∉ η) (hn : ∀ k, .notify k ∉ after)
    (hw : w'.marks l t = w.marks l t) : Covers l t w before η w' after := by
  rw [Covers, hp, countP_isFor_acceptedBy_eq_zero ha, countP_notifies_eq_zero hn, hw]
  omega

/-- A target that is polled pays with its entry, and with its mark if it has one. -/
theorem covers_poll (t' : Target) {b : Bool} (hx : w.waker? k = some ⟨l', t', b⟩)
    (hn : ∀ k, .notify k ∉ after)
    (hw : w'.marks l t + (if (⟨l', t', b⟩ : Waker).isOf l t && b then 1 else 0) = w.marks l t) :
    Covers l t w before [.processed l' t'.entry, .polled k] w' after := by
  have hunasked : [Happening.processed l' t'.entry, .polled k].countP
      (Happening.isUnasked w l t) = if (⟨l', t', b⟩ : Waker).isOf l t && !b then 1 else 0 := by
    simp [Happening.isUnasked, hx]
  have hprocessed : (processedBy l [.processed l' t'.entry, .polled k]).countP
      (Entry.isFor (G := G) t) = if (⟨l', t', b⟩ : Waker).isOf l t then 1 else 0 := by
    by_cases hl : l' = l <;>
      simp [Happening.processed?, hl, Waker.isOf, Entry.isFor_entry]
  rw [Covers, hunasked, hprocessed, countP_isFor_acceptedBy_eq_zero (by simp),
    countP_notifies_eq_zero hn]
  cases b <;>
    simp only [Bool.and_true, Bool.and_false, Bool.not_true, Bool.not_false, Bool.false_eq_true,
      if_false] at hw ⊢ <;> omega

theorem Effect.covers (effect : Effect w others before η w' after)
    (trail : Trail .empty [] τ w (before ++ others)) : Covers l t w before η w' after := by
  cases effect with
  | enter =>
    refine covers_frame ?_ (by simp) (by simp) (World.marks_newWaker _ _)
    simp [Happening.isUnasked, World.waker?_size]
  | @mark k x hx hn =>
    have hmarks := World.marks_mark (l := l) (t := t) hx hn
    have hafter : [Job.notify k].countP (Job.notifies (w.mark k).1 l t) =
        if x.isOf l t then 1 else 0 := by
      simp [List.countP_singleton, Job.notifies, World.waker?_mark, hx, Waker.isOf]
    rw [Covers, countP_isUnasked_eq_zero (by simp), countP_isFor_acceptedBy_eq_zero (by simp),
      hafter]
    omega
  | @notify k x hx =>
    have hbefore : [Job.notify k].countP (Job.notifies w l t) = if x.isOf l t then 1 else 0 := by
      simp [List.countP_singleton, Job.notifies, hx, Waker.isOf]
    have haccepted : (acceptedBy l [.accepted x.loop x.target.entry]).countP
        (Entry.isFor (G := G) t) = if x.isOf l t then 1 else 0 := by
      by_cases hl : x.loop = l <;>
        simp [Happening.accepted?, hl, Waker.isOf, Entry.isFor_entry]
    have hmarks : (w.enqueue x.loop x.target.entry).marks l t = w.marks l t := rfl
    rw [Covers, countP_isUnasked_eq_zero (by simp), countP_notifies_eq_zero (by simp), hbefore,
      haccepted, hmarks]
    omega
  | @processMain l' k =>
    obtain ⟨b, hx⟩ := (trail.wired (l := l')).label k .main
      ⟨_, List.mem_cons_self, by simp [Job.drives]⟩
    exact covers_poll .main hx (by simp) (World.marks_rearm hx)
  | @processTask l' _ _ slot _ k _ _ ht =>
    obtain ⟨b, hx⟩ := trail.wired.label k (.task slot) ⟨_, ht⟩
    have hmarks : (w.rearm k).marks l t + _ = w.marks l t := World.marks_rearm hx
    exact covers_poll (.task slot) hx (by simp) hmarks
  | marked hx hn =>
    exact covers_frame (countP_isUnasked_eq_zero (by simp)) (by simp) (by simp)
      (World.marks_marked hx hn)
  | spawn | processStart =>
    refine covers_frame (countP_isUnasked_eq_zero (by simp)) (by simp) (by simp) ?_
    exact World.marks_addTask _ _ _
  | submit | handOver =>
    refine covers_frame (countP_isUnasked_eq_zero (by simp)) ?_ (by simp) rfl
    cases t <;> simp [Target.entry]
  | _ => exact covers_frame (countP_isUnasked_eq_zero (by simp)) (by simp) (by simp) rfl

/-- No waker of another thread becomes one of another target. -/
theorem Effect.countP_notifies_others (effect : Effect w others before η w' after)
    (trail : Trail .empty [] τ w (before ++ others)) :
    others.countP (Job.notifies w' l t) = others.countP (Job.notifies w l t) := by
  refine List.countP_congr fun job hj => ?_
  cases job with
  | notify k =>
    obtain ⟨x, hx⟩ := Option.isSome_iff_exists.mp
      (trail.isSome_of_notify (List.mem_append_right _ hj))
    obtain ⟨b, hx'⟩ := effect.waker? hx
    simp [Job.notifies, hx, hx']
  | _ => simp [Job.notifies]

/-- What an effect adds to what is on the way to a target, and the polls of the target that its
waker was not marked for, come out of marks. -/
theorem Effect.onTheWay_le (effect : Effect w others before η w' after)
    (trail : Trail .empty [] τ w (before ++ others)) :
    η.countP (Happening.isUnasked w l t) + onTheWay w' (after ++ others) l t + w.marks l t ≤
      onTheWay w (before ++ others) l t + w'.marks l t := by
  have hcovers := effect.covers trail (l := l) (t := t)
  have hcount := effect.countP_queue_le (trail.tidy (l := l) tidy_empty) (Entry.isFor t)
  have hothers := effect.countP_notifies_others trail (l := l) (t := t)
  simp only [onTheWay, List.countP_append, Covers] at *
  omega

theorem onTheWay_same (h : Tidy w D l) (hw : w.Agrees w') (hD : D.Perm D') :
    onTheWay w' D' l t = onTheWay w D l t := by
  have hnotifies : Job.notifies w' l t = Job.notifies w l t := by
    funext job
    cases job with
    | notify k => rw [Job.notifies, Job.notifies, waker?_same hw]
    | _ => rfl
  rw [onTheWay, onTheWay, (bench_same h hw hD).1, hnotifies, hD.countP_eq]

theorem marks_same (hw : w.Agrees w') : w'.marks l t = w.marks l t := by
  rw [World.marks, World.marks, hw.wakers]

/-- What is on the way to a target is no more than its marks. -/
theorem Trail.onTheWay_le (trail : Trail .empty [] τ w D) :
    onTheWay w D l t ≤ w.marks l t := by
  induction trail with
  | here =>
    simp [onTheWay, bench, Bench.toFifo, World.queue?, World.loop?, World.empty]
  | same trail hw hD ih =>
    rw [onTheWay_same (trail.tidy tidy_empty) hw hD, marks_same hw]
    exact ih
  | step trail effect ih =>
    have hstep := effect.onTheWay_le trail (l := l) (t := t)
    omega

end

end RunLoop
