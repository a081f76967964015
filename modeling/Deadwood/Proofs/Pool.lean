import Deadwood.Pool
import Mathlib.Data.List.Perm.Basic
import Mathlib.Data.List.Nodup

/-!
Every complete run of a pool delivers the same results, whatever the workers do in between. A step
leaves the outstanding tasks as they are or removes one of them and fills its slot, which keeps two
facts: a task that is no longer outstanding has its result in its slot, and no task is outstanding
twice. Each step also uses up one unit of work, and as long as there is work some step can be made.
-/
namespace Deadwood

namespace Pool

variable {α β : Type} {f : α → β} {tasks : List α} {pool pool' : Pool α β}

section Step

theorem filterMap_set_perm {l : List (Option α)} {i : Nat} {old : Option α} (new : Option α)
    (h : l[i]? = some old) :
    (new.toList ++ l.filterMap id).Perm (old.toList ++ (l.set i new).filterMap id) := by
  obtain ⟨hi, rfl⟩ := List.getElem?_eq_some_iff.mp h
  have hcons : ∀ o : Option α, (o :: l.eraseIdx i).filterMap id =
      o.toList ++ (l.eraseIdx i).filterMap id := by
    intro o
    cases o <;> rfl
  have hold := (List.getElem_cons_eraseIdx_perm hi).symm.filterMap id
  have hnew := (List.set_perm_cons_eraseIdx hi new).filterMap id
  rw [hcons] at hold hnew
  calc new.toList ++ l.filterMap id
    _ |>.Perm (new.toList ++ (l[i].toList ++ (l.eraseIdx i).filterMap id)) := hold.append_left _
    _ |>.Perm (l[i].toList ++ (new.toList ++ (l.eraseIdx i).filterMap id)) :=
      List.perm_append_comm_assoc _ _ _
    _ |>.Perm (l[i].toList ++ (l.set i new).filterMap id) := hnew.symm.append_left _

/-- What an action comes to: a task changes hands, or it leaves and fills its slot. -/
inductive Effect (f : α → β) (pool pool' : Pool α β) : Prop
  | taken (hpending : pool.pending.length = pool'.pending.length + 1)
      (hout : pool.outstanding.Perm pool'.outstanding) (hslots : pool'.slots = pool.slots)
  | finished (task : α × Nat) (hpending : pool.pending.length = pool'.pending.length)
      (hout : pool.outstanding.Perm (task :: pool'.outstanding))
      (hslots : pool'.slots = pool.slots.set task.2 (some (f task.1)))

theorem effect_of_step {action : Action} (h : pool.step f action = some pool') :
    Effect f pool pool' := by
  cases action with
  | take worker position =>
    simp only [step] at h
    split at h
    case h_1 _ _ task hworker hposition =>
      cases h
      obtain ⟨hlt, rfl⟩ := List.getElem?_eq_some_iff.mp hposition
      have hpending := (List.getElem_cons_eraseIdx_perm hlt).symm
      have hbusy := filterMap_set_perm (some pool.pending[position]) hworker
      refine .taken ?_ ?_ rfl
      · exact hpending.length_eq
      · exact ((hpending.append_right _).trans List.perm_middle.symm).trans (hbusy.append_left _)
    case h_2 => cases h
  | finish worker =>
    simp only [step] at h
    split at h
    case h_1 _ a slot hworker =>
      cases h
      have hbusy := filterMap_set_perm none hworker
      exact .finished (a, slot) rfl ((hbusy.append_left _).trans List.perm_middle) rfl
    case h_2 => cases h

theorem length_workers_of_step {action : Action} (h : pool.step f action = some pool') :
    pool'.workers.length = pool.workers.length := by
  cases action with
  | take worker position =>
    simp only [step] at h
    split at h <;> cases h
    exact List.length_set
  | finish worker =>
    simp only [step] at h
    split at h <;> cases h
    exact List.length_set

theorem work_of_step {action : Action} (h : pool.step f action = some pool') :
    pool.work = pool'.work + 1 := by
  unfold work
  cases effect_of_step h with
  | taken hpending hout hslots =>
    have hlength := hout.length_eq
    omega
  | finished task hpending hout hslots =>
    have hlength := hout.length_eq
    rw [List.length_cons] at hlength
    omega

end Step

/-- No task is outstanding twice, and those that are not outstanding have their results. -/
structure Sound (f : α → β) (tasks : List α) (pool : Pool α β) : Prop where
  length : pool.slots.length = tasks.length
  nodup : pool.outstanding.Nodup
  submitted : ∀ task ∈ pool.outstanding, task ∈ tasks.zipIdx
  stored : ∀ task ∈ tasks.zipIdx, task ∉ pool.outstanding →
    pool.slots[task.2]? = some (some (f task.1))

theorem outstanding_start (count : Nat) (tasks : List α) :
    (start count tasks : Pool α β).outstanding = tasks.zipIdx := by
  simp [outstanding, start]

theorem workers_start_ne_nil {count : Nat} (hcount : 1 ≤ count) (tasks : List α) :
    (start count tasks : Pool α β).workers ≠ [] := by
  rwa [← List.length_pos_iff, start, List.length_replicate]

theorem sound_start (f : α → β) (count : Nat) (tasks : List α) :
    Sound f tasks (start count tasks) where
  length := List.length_replicate
  nodup := by
    rw [outstanding_start]
    apply List.Nodup.of_map Prod.snd
    rw [List.zipIdx_map_snd]
    exact List.nodup_range'
  submitted := by
    intro task htask
    rwa [outstanding_start] at htask
  stored := by
    intro task htask hnot
    rw [outstanding_start] at hnot
    exact absurd htask hnot

theorem slot_ne_of_ne {task task' : α × Nat} (h : task ∈ tasks.zipIdx) (h' : task' ∈ tasks.zipIdx)
    (hne : task ≠ task') : task.2 ≠ task'.2 := by
  intro hslot
  rw [List.mem_zipIdx_iff_getElem?] at h h'
  rw [hslot, h'] at h
  exact hne (Prod.ext (Option.some.inj h).symm hslot)

theorem Sound.step {action : Action} (hsound : Sound f tasks pool)
    (h : pool.step f action = some pool') : Sound f tasks pool' := by
  cases effect_of_step h with
  | taken hpending hout hslots =>
    exact {
      length := by rw [hslots, hsound.length]
      nodup := hout.nodup_iff.mp hsound.nodup
      submitted := fun task htask => hsound.submitted task (hout.mem_iff.mpr htask)
      stored := by
        intro task htask hnot
        rw [hslots]
        exact hsound.stored task htask (mt hout.mem_iff.mp hnot) }
  | finished done hpending hout hslots =>
    have hdone := hsound.submitted done (hout.mem_iff.mpr List.mem_cons_self)
    exact {
      length := by rw [hslots, List.length_set, hsound.length]
      nodup := (List.nodup_cons.mp (hout.nodup_iff.mp hsound.nodup)).2
      submitted := fun task htask =>
        hsound.submitted task (hout.mem_iff.mpr (List.mem_cons_of_mem _ htask))
      stored := by
        intro task htask hnot
        rw [hslots]
        by_cases heq : task = done
        · have hlt := (List.getElem?_eq_some_iff.mp (List.mem_zipIdx_iff_getElem?.mp hdone)).1
          rw [heq, List.getElem?_set_self (hsound.length ▸ hlt)]
        · rw [List.getElem?_set_ne (slot_ne_of_ne htask hdone heq).symm]
          apply hsound.stored task htask
          rw [hout.mem_iff, List.mem_cons, not_or]
          exact ⟨heq, hnot⟩ }

theorem Sound.results_eq (hsound : Sound f tasks pool) (hdone : pool.isDone) :
    pool.results = tasks.map f := by
  have hslots : pool.slots = tasks.map (some ∘ f) := by
    apply List.ext_getElem?
    intro i
    rw [List.getElem?_map]
    cases htask : tasks[i]? with
    | none =>
      rw [List.getElem?_eq_none_iff] at htask
      exact List.getElem?_eq_none (hsound.length ▸ htask)
    | some a =>
      apply hsound.stored (a, i) (List.mk_mem_zipIdx_iff_getElem?.mpr htask)
      rw [List.isEmpty_iff.mp hdone]
      exact List.not_mem_nil
  rw [results, hslots, List.filterMap_map]
  exact congrFun List.filterMap_eq_map tasks

section Run

variable {actions : List Action}

theorem run_cons (pool : Pool α β) (action : Action) (actions : List Action) :
    pool.run f (action :: actions) = (pool.step f action).bind fun next => next.run f actions :=
  List.foldlM_cons

theorem run_preserves {P : Pool α β → Prop}
    (hstep : ∀ pool action pool', P pool → pool.step f action = some pool' → P pool')
    (h : pool.run f actions = some pool') (hpool : P pool) : P pool' := by
  induction actions generalizing pool with
  | nil =>
    cases h
    exact hpool
  | cons action actions ih =>
    rw [run_cons] at h
    obtain ⟨next, hnext, hrest⟩ := Option.bind_eq_some_iff.mp h
    exact ih hrest (hstep pool action next hpool hnext)

theorem Sound.run (hsound : Sound f tasks pool) (h : pool.run f actions = some pool') :
    Sound f tasks pool' :=
  run_preserves (fun _ _ _ hsound hstep => hsound.step hstep) h hsound

theorem length_workers_of_run (h : pool.run f actions = some pool') :
    pool'.workers.length = pool.workers.length :=
  run_preserves (P := fun p => p.workers.length = pool.workers.length)
    (fun _ _ _ hlength hstep => (length_workers_of_step hstep).trans hlength) h rfl

theorem workers_ne_nil_of_run (hworkers : pool.workers ≠ [])
    (h : pool.run f actions = some pool') : pool'.workers ≠ [] := by
  rwa [← List.length_pos_iff, length_workers_of_run h, List.length_pos_iff]

theorem work_of_run (h : pool.run f actions = some pool') :
    pool.work = pool'.work + actions.length := by
  induction actions generalizing pool with
  | nil =>
    cases h
    rfl
  | cons action actions ih =>
    rw [run_cons] at h
    obtain ⟨next, hstep, hrest⟩ := Option.bind_eq_some_iff.mp h
    rw [work_of_step hstep, ih hrest, List.length_cons]
    omega

end Run

section Progress

theorem isDone_iff_work_eq_zero : pool.isDone ↔ pool.work = 0 := by
  simp [isDone, work, outstanding]

theorem work_start (count : Nat) (tasks : List α) :
    (start count tasks : Pool α β).work = 2 * tasks.length := by
  rw [work, outstanding_start, start, List.length_zipIdx]
  omega

theorem exists_finish (f : α → β) (h : pool.workers.filterMap id ≠ []) :
    ∃ worker, pool.workers.findIdx? Option.isSome = some worker ∧
      (pool.step f (.finish worker)).isSome := by
  obtain ⟨task, htask⟩ := List.exists_mem_of_ne_nil _ h
  obtain ⟨o, ho, rfl⟩ := List.mem_filterMap.mp htask
  cases hidx : pool.workers.findIdx? Option.isSome with
  | none => cases List.findIdx?_eq_none_iff.mp hidx _ ho
  | some worker =>
    obtain ⟨hlt, hbusy, _⟩ := List.findIdx?_eq_some_iff_getElem.mp hidx
    obtain ⟨⟨a, slot⟩, hget⟩ := Option.isSome_iff_exists.mp hbusy
    refine ⟨worker, rfl, ?_⟩
    simp only [step, List.getElem?_eq_getElem hlt, hget, Option.isSome_some]

theorem exists_next (f : α → β) (hworkers : pool.workers ≠ []) (hwork : 0 < pool.work) :
    ∃ action, pool.next? = some action ∧ (pool.step f action).isSome := by
  unfold next?
  cases hidle : pool.workers.findIdx? Option.isNone with
  | none =>
    have hbusy : pool.workers.filterMap id ≠ [] := by
      obtain ⟨o, ho⟩ := List.exists_mem_of_ne_nil _ hworkers
      have hnone := List.findIdx?_eq_none_iff.mp hidle o ho
      obtain ⟨task, rfl⟩ := Option.isSome_iff_exists.mp (Option.isNone_eq_false_iff.mp hnone)
      exact List.ne_nil_of_mem (List.mem_filterMap.mpr ⟨_, ho, rfl⟩)
    obtain ⟨worker, hidx, hstep⟩ := exists_finish f hbusy
    cases hpending : pool.pending <;> exact ⟨.finish worker, by simp [hidx], hstep⟩
  | some worker =>
    cases hpending : pool.pending with
    | nil =>
      have hbusy : pool.workers.filterMap id ≠ [] := by
        rwa [work, outstanding, hpending, List.nil_append, List.length_nil, Nat.zero_add,
          List.length_pos_iff] at hwork
      obtain ⟨worker, hidx, hstep⟩ := exists_finish f hbusy
      exact ⟨.finish worker, by simp [hidx], hstep⟩
    | cons task rest =>
      obtain ⟨hlt, hnone, _⟩ := List.findIdx?_eq_some_iff_getElem.mp hidle
      refine ⟨.take worker 0, rfl, ?_⟩
      simp only [step, List.getElem?_eq_getElem hlt, Option.isNone_iff_eq_none.mp hnone, hpending,
        List.getElem?_cons_zero, Option.isSome_some]

theorem exists_run_advance (f : α → β) (n : Nat) (hworkers : pool.workers ≠ [])
    (hn : n ≤ pool.work) :
    ∃ actions, actions.length = n ∧ pool.run f actions = some (pool.advance f n) := by
  induction n generalizing pool with
  | zero => exact ⟨[], rfl, rfl⟩
  | succ n ih =>
    obtain ⟨action, hnext, hsome⟩ := exists_next f hworkers (by omega)
    obtain ⟨pool', hstep⟩ := Option.isSome_iff_exists.mp hsome
    have hworkers' : pool'.workers ≠ [] := by
      rwa [← List.length_pos_iff, length_workers_of_step hstep, List.length_pos_iff]
    have hwork := work_of_step hstep
    obtain ⟨actions, hlength, hrun⟩ := ih hworkers' (by omega)
    refine ⟨action :: actions, by rw [List.length_cons, hlength], ?_⟩
    rw [run_cons, hstep]
    simp only [advance, hnext, Option.bind_some, hstep, hrun]

/-- Every run can be brought to its end. -/
theorem exists_complete_run (f : α → β) (hworkers : pool.workers ≠ []) :
    ∃ actions, pool.run f actions = some (pool.advance f pool.work) ∧
      (pool.advance f pool.work).isDone := by
  obtain ⟨actions, hlength, hrun⟩ := exists_run_advance f pool.work hworkers (Nat.le_refl _)
  refine ⟨actions, hrun, isDone_iff_work_eq_zero.mpr ?_⟩
  have hwork := work_of_run hrun
  omega

theorem complete_eq_map (f : α → β) {count : Nat} (hcount : 1 ≤ count) (tasks : List α) :
    complete f count tasks = tasks.map f := by
  obtain ⟨actions, hrun, hdone⟩ := exists_complete_run f (workers_start_ne_nil hcount tasks)
  exact ((sound_start f count tasks).run hrun).results_eq hdone

end Progress

end Pool

end Deadwood
