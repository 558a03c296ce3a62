import Mathlib.Data.List.Nodup
import Mathlib.Logic.Function.Basic
import OrePool.Core.Machine

/-!
# Locks

A `Machine` takes one step after the other.  Tasks on several threads do not: a task waits for a
lock, reads what the lock guards, and writes when it lets go, while the others go on.
`Guarded.locked` is the machine of such tasks.  A step under a lock is made on what was read when
the lock was granted, so that whatever another task wrote meanwhile would be overwritten.

* `Lock` — a fair lock for many readers or one writer: the requests are granted in their order.
* `Disciplined` — what a task changes is guarded by a lock that it holds for writing, and it does
  not move another task.
* `Sound.step` — what is granted stays current until it is let go.
* `serialisable` — the run is one of the machine without locks.
* `sequential` — a run of the machine without locks in which no task tries in vain is one with them.
* `progress` — a lock that is not free can always be passed on.
-/

namespace Locking

open Interleaving

variable {ι κ σ α : Type}

/-! ## A lock -/

inductive Mode
  | read
  | write
  deriving DecidableEq

/-- A task that has been granted the lock, with what it found. -/
structure Holder (ι σ : Type) where
  task : ι
  mode : Mode
  seen : σ

/-- A task that waits for the lock. -/
structure Waiter (ι : Type) where
  task : ι
  mode : Mode

/-- Who has the lock and who waits for it, the first in front.  A writer has it alone. -/
@[ext]
structure Lock (ι σ : Type) where
  holders : List (Holder ι σ)
  queue : List (Waiter ι)
  nodup : (holders.map Holder.task ++ queue.map Waiter.task).Nodup
  alone : ∀ h ∈ holders, h.mode = .write → holders = [h]

namespace Lock

variable (l : Lock ι σ)

/-- Nobody has it or waits for it. -/
def empty : Lock ι σ := ⟨[], [], List.nodup_nil, by rintro _ ⟨⟩⟩

/-- One task has it and nobody waits. -/
def held (i : ι) (m : Mode) (seen : σ) : Lock ι σ where
  holders := [⟨i, m, seen⟩]
  queue := []
  nodup := List.nodup_singleton i
  alone := fun _ hmem _ => by rw [List.mem_singleton.mp hmem]

/-- The tasks that have it or wait for it. -/
def tasks : List ι := l.holders.map Holder.task ++ l.queue.map Waiter.task

/-- It can be had at once. -/
def isFree : Bool := l.holders.isEmpty && l.queue.isEmpty

/-- The holders let another one in. -/
def admits : Mode → Bool
  | .read => l.holders.all fun h => h.mode = .read
  | .write => l.holders.isEmpty

lemma alone_cons {i : ι} {m : Mode} {seen : σ} (h : l.admits m = true) :
    ∀ h' ∈ ⟨i, m, seen⟩ :: l.holders, h'.mode = .write → ⟨i, m, seen⟩ :: l.holders = [h'] := by
  intro h' hmem hwrite
  cases m with
  | read =>
      have hreads : ∀ h ∈ l.holders, h.mode = .read := by simpa [admits] using h
      rcases List.mem_cons.mp hmem with rfl | hmem
      · cases hwrite
      · rw [hreads h' hmem] at hwrite
        cases hwrite
  | write =>
      have hnone : l.holders = [] := List.isEmpty_iff.mp h
      rw [hnone] at hmem ⊢
      rw [List.mem_singleton.mp hmem]

/-- The first in the queue is let in. -/
def grant (seen : σ) : Option (Lock ι σ) :=
  match hq : l.queue with
  | [] => none
  | w :: ws =>
      if h : l.admits w.mode then
        some
          { holders := ⟨w.task, w.mode, seen⟩ :: l.holders
            queue := ws
            nodup := by
              have hnodup := l.nodup
              rw [hq] at hnodup
              exact List.nodup_middle.mp hnodup
            alone := l.alone_cons h }
      else
        none

/-- A task takes the lock if it is free, without waiting. -/
def tryLock (i : ι) (m : Mode) (seen : σ) : Option (Lock ι σ) :=
  if l.isFree then some (held i m seen) else none

variable {l} {l' : Lock ι σ} {i : ι} {m : Mode} {seen : σ}

lemma grant_eq_some (h : l.grant seen = some l') :
    ∃ w ws, l.queue = w :: ws ∧ l.admits w.mode = true ∧
      l'.holders = ⟨w.task, w.mode, seen⟩ :: l.holders ∧ l'.queue = ws := by
  rw [grant] at h
  split at h
  · cases h
  · rename_i w ws hq
    split at h
    · cases h
      exact ⟨w, ws, hq, ‹_›, rfl, rfl⟩
    · cases h

/-- Where nobody has the lock, the first who waits is let in. -/
lemma isSome_grant (hfree : l.isFree = false) (hnone : l.holders = []) :
    (l.grant seen).isSome = true := by
  rw [grant]
  split
  · rename_i hq
    simp [isFree, hnone, hq] at hfree
  · rename_i w ws hq
    have hadmits : l.admits w.mode = true := by
      cases w.mode with
      | read => simp [admits, hnone]
      | write => simp [admits, hnone]
    rw [dif_pos hadmits]
    rfl

lemma tryLock_eq_some (h : l.tryLock i m seen = some l') :
    l.holders = [] ∧ l.queue = [] ∧ l'.holders = [⟨i, m, seen⟩] ∧ l'.queue = [] := by
  rw [tryLock] at h
  split at h
  · rename_i hfree
    rw [isFree, Bool.and_eq_true, List.isEmpty_iff, List.isEmpty_iff] at hfree
    cases h
    exact ⟨hfree.1, hfree.2, rfl, rfl⟩
  · cases h

/-- Only one of two holders writes, and only if they are the same. -/
lemma eq_of_write {h h' : Holder ι σ} (hmem : h ∈ l.holders) (hmem' : h' ∈ l.holders)
    (hwrite : h.mode = .write) : h' = h := by
  rw [l.alone h hmem hwrite] at hmem'
  exact List.mem_singleton.mp hmem'

/-- A task that waits does not hold the lock. -/
lemma ne_of_waits {h : Holder ι σ} {w : Waiter ι} (hh : h ∈ l.holders) (hw : w ∈ l.queue) :
    w.task ≠ h.task := fun heq =>
  (List.nodup_append.mp l.nodup).2.2 _ (List.mem_map_of_mem hh) _ (List.mem_map_of_mem hw) heq.symm

variable [DecidableEq ι]

variable (l) in
/-- A task joins the queue. -/
def ask (i : ι) (m : Mode) : Option (Lock ι σ) :=
  if h : i ∈ l.tasks then
    none
  else
    some
      { holders := l.holders
        queue := l.queue ++ [⟨i, m⟩]
        nodup := by
          rw [List.map_append, ← List.append_assoc]
          exact List.nodup_append.mpr ⟨l.nodup, List.nodup_singleton i, fun a ha b hb =>
            ne_of_mem_of_not_mem ha (List.mem_singleton.mp hb ▸ h)⟩
        alone := l.alone }

lemma ask_eq_some (h : l.ask i m = some l') :
    i ∉ l.tasks ∧ l'.holders = l.holders ∧ l'.queue = l.queue ++ [⟨i, m⟩] := by
  rw [ask] at h
  split at h
  · cases h
  · cases h
    exact ⟨‹_›, rfl, rfl⟩

variable (l) in
/-- A task lets go. -/
def release (i : ι) : Lock ι σ where
  holders := l.holders.filter fun h => h.task ≠ i
  queue := l.queue
  nodup := l.nodup.sublist (((List.filter_sublist).map _).append (List.Sublist.refl _))
  alone h hmem hwrite := by
    obtain ⟨hmem, hne⟩ := List.mem_filter.mp hmem
    rw [l.alone h hmem hwrite, List.filter_singleton, hne, cond_true]

/-! One task alone. -/

omit [DecidableEq ι] in
lemma tryLock_empty (i : ι) (m : Mode) (seen : σ) :
    (empty : Lock ι σ).tryLock i m seen = some (held i m seen) := rfl

lemma ask_grant_empty (i : ι) (m : Mode) (seen : σ) :
    ∃ l, (empty : Lock ι σ).ask i m = some l ∧ l.grant seen = some (held i m seen) := by
  refine ⟨_, dif_neg (List.not_mem_nil (a := i)), ?_⟩
  cases m <;> rfl

lemma release_held (i : ι) (m : Mode) (seen : σ) :
    (held i m seen).release i = empty :=
  Lock.ext (by simp [held, release, empty]) rfl

end Lock

/-! ## Tasks with locks -/

/-- What a task needs for its next step: a lock, for which it waits or which it merely tries. -/
structure Access (κ : Type) where
  lock : κ
  mode : Mode
  tries : Bool

/-- A machine whose tasks take locks.  `restore k t s` is `s` with what lock `k` guards as it is in
`t`; a refused action is what a task does that has tried in vain. -/
structure Guarded (ι κ σ α : Type) extends Machine σ α where
  takes : ι → α → Bool
  guard : σ → ι → Option (Access κ)
  restore : κ → σ → σ → σ
  refused : α → Bool

/-- Task `i` may change what `k` guards. -/
def Guarded.Writes (G : Guarded ι κ σ α) (s : σ) (i : ι) (k : κ) : Prop :=
  ∃ acc, G.guard s i = some acc ∧ acc.lock = k ∧ acc.mode = .write

/-- A task changes what it may write and nothing else that is guarded, a task that tries in vain
changes nothing, and no task moves another. -/
structure Disciplined (G : Guarded ι κ σ α) : Prop where
  restore_self : ∀ k s, G.restore k s s = s
  frame : ∀ {s s' : σ} {i : ι} {a : α}, G.takes i a = true → G.step s a = some s' →
    ∀ k, ¬ G.Writes s i k → ∀ t, G.restore k t s = s → G.restore k t s' = s'
  refused : ∀ {s s' : σ} {i : ι} {a : α} {acc : Access κ}, G.takes i a = true →
    G.guard s i = some acc → acc.tries = true → G.refused a = true → G.step s a = some s' →
    ∀ k t, G.restore k t s = s → G.restore k t s' = s'
  kept : ∀ {s s' : σ} {i j : ι} {a : α} {acc : Access κ}, G.takes i a = true →
    G.step s a = some s' → j ≠ i → G.guard s j = some acc → G.guard s' j = some acc

/-! ## Sound locks -/

/-- Whoever has lock `k` is about to take its step under it, and what it has seen is so still.
Whoever waits is about to take its step too. -/
structure Lock.Sound (G : Guarded ι κ σ α) (s : σ) (k : κ) (l : Lock ι σ) : Prop where
  holds : ∀ h ∈ l.holders, ∃ tries, G.guard s h.task = some ⟨k, h.mode, tries⟩
  current : ∀ h ∈ l.holders, G.restore k h.seen s = s
  waits : ∀ w ∈ l.queue, G.guard s w.task = some ⟨k, w.mode, false⟩

namespace Lock.Sound

variable {G : Guarded ι κ σ α} {s s' : σ} {k : κ} {l l' : Lock ι σ} {i : ι} {a : α}
  {acc : Access κ}

lemma guard_of_mem (h : l.Sound G s k) (hmem : i ∈ l.tasks) :
    ∃ acc, G.guard s i = some acc ∧ acc.lock = k := by
  rcases List.mem_append.mp hmem with hmem | hmem
  · obtain ⟨holder, hholder, rfl⟩ := List.mem_map.mp hmem
    obtain ⟨tries, hholds⟩ := h.holds holder hholder
    exact ⟨_, hholds, rfl⟩
  · obtain ⟨w, hw, rfl⟩ := List.mem_map.mp hmem
    exact ⟨_, h.waits w hw, rfl⟩

lemma grant (hG : Disciplined G) (h : l.Sound G s k) (hl : l.grant s = some l') :
    l'.Sound G s k := by
  obtain ⟨w, ws, hq, -, hholders, hqueue⟩ := Lock.grant_eq_some hl
  refine ⟨?_, ?_, ?_⟩
  · rw [hholders]
    exact List.forall_mem_cons.mpr ⟨⟨false, h.waits w (hq ▸ List.mem_cons_self)⟩, h.holds⟩
  · rw [hholders]
    exact List.forall_mem_cons.mpr ⟨hG.restore_self k s, h.current⟩
  · rw [hqueue]
    exact fun w' hw' => h.waits w' (hq ▸ List.mem_cons_of_mem w hw')

lemma tryLock (hG : Disciplined G) (hguard : G.guard s i = some acc)
    (hl : l.tryLock i acc.mode s = some l') : l'.Sound G s acc.lock := by
  obtain ⟨-, -, hholders, hqueue⟩ := Lock.tryLock_eq_some hl
  refine ⟨?_, ?_, ?_⟩
  · rw [hholders]
    exact List.forall_mem_singleton.mpr ⟨acc.tries, hguard⟩
  · rw [hholders]
    exact List.forall_mem_singleton.mpr (hG.restore_self _ s)
  · rw [hqueue]
    exact List.forall_mem_nil _

lemma ask [DecidableEq ι] (h : l.Sound G s acc.lock) (hguard : G.guard s i = some acc)
    (htries : acc.tries = false) (hl : l.ask i acc.mode = some l') : l'.Sound G s acc.lock := by
  obtain ⟨-, hholders, hqueue⟩ := Lock.ask_eq_some hl
  refine ⟨hholders ▸ h.holds, hholders ▸ h.current, ?_⟩
  rw [hqueue]
  refine List.forall_mem_append.mpr ⟨h.waits, List.forall_mem_singleton.mpr ?_⟩
  rw [hguard, ← htries]

/-- Another task's step keeps it, if it keeps what the lock guards. -/
lemma step (hG : Disciplined G) (h : l.Sound G s k) (htakes : G.takes i a = true)
    (hs : G.step s a = some s') (hout : i ∉ l.tasks)
    (hframe : l.holders ≠ [] → ∀ t, G.restore k t s = s → G.restore k t s' = s') :
    l.Sound G s' k := by
  refine ⟨fun holder hmem => ?_, fun holder hmem => ?_, fun w hmem => ?_⟩
  · obtain ⟨tries, hholds⟩ := h.holds holder hmem
    have hne : holder.task ≠ i := fun heq =>
      hout (heq ▸ List.mem_append_left _ (List.mem_map_of_mem hmem))
    exact ⟨tries, hG.kept htakes hs hne hholds⟩
  · exact hframe (List.ne_nil_of_mem hmem) _ (h.current holder hmem)
  · have hne : w.task ≠ i := fun heq =>
      hout (heq ▸ List.mem_append_right _ (List.mem_map_of_mem hmem))
    exact hG.kept htakes hs hne (h.waits w hmem)

/-- A step under another lock keeps it. -/
lemma elsewhere (hG : Disciplined G) (h : l.Sound G s k) (htakes : G.takes i a = true)
    (hs : G.step s a = some s') (helse : ∀ acc, G.guard s i = some acc → acc.lock ≠ k) :
    l.Sound G s' k := by
  refine h.step hG htakes hs (fun hmem => ?_) fun _ => hG.frame htakes hs k ?_
  · obtain ⟨acc, hguard, hk⟩ := h.guard_of_mem hmem
    exact helse acc hguard hk
  · rintro ⟨acc, hguard, hk, -⟩
    exact helse acc hguard hk

/-- So does the step of the task that lets go: the others can only be readers. -/
lemma release [DecidableEq ι] (hG : Disciplined G) (h : l.Sound G s k)
    (htakes : G.takes i a = true) (hs : G.step s a = some s') {holder : Holder ι σ}
    (hmem : holder ∈ l.holders) (htask : holder.task = i) : (l.release i).Sound G s' k := by
  have hmine : (l.release i).Sound G s k :=
    ⟨fun other hother => h.holds other (List.mem_of_mem_filter hother),
      fun other hother => h.current other (List.mem_of_mem_filter hother), h.waits⟩
  refine hmine.step hG htakes hs (fun hmem' => ?_) fun hne => hG.frame htakes hs k ?_
  · rcases List.mem_append.mp hmem' with hmem' | hmem'
    · obtain ⟨other, hother, heq⟩ := List.mem_map.mp hmem'
      exact absurd heq (by simpa using (List.mem_filter.mp hother).2)
    · obtain ⟨w, hw, heq⟩ := List.mem_map.mp hmem'
      exact Lock.ne_of_waits hmem hw (heq.trans htask.symm)
  · rintro ⟨acc, hguard, rfl, hwrite⟩
    obtain ⟨tries, hholds⟩ := h.holds holder hmem
    rw [htask, hguard, Option.some.injEq] at hholds
    rw [hholds] at hwrite
    refine hne (List.filter_eq_nil_iff.mpr fun other hother => ?_)
    rw [Lock.eq_of_write hmem hother hwrite, htask]
    simp

end Lock.Sound

/-! ## The machine with its locks -/

/-- The memory and its locks. -/
structure Locked (ι κ σ : Type) where
  state : σ
  locks : κ → Lock ι σ

/-- A task asks for the lock it needs, the first in a queue gets it, a task takes a lock that is
free, or it takes its step. -/
inductive LockAction (ι κ α : Type)
  | ask (i : ι)
  | grant (k : κ)
  | tryLock (i : ι)
  | act (i : ι) (a : α)

variable [DecidableEq ι] [DecidableEq κ] (G : Guarded ι κ σ α)

def Locked.put (x : Locked ι κ σ) (k : κ) (l : Lock ι σ) : Locked ι κ σ :=
  { x with locks := Function.update x.locks k l }

/-- One step of task `i`.  What it needs a lock for it does on what it saw when it was let in, and
with that it lets go. -/
def Guarded.actLocked (x : Locked ι κ σ) (i : ι) (a : α) : Option (Locked ι κ σ) :=
  match G.guard x.state i with
  | none => (G.step x.state a).map fun s => { x with state := s }
  | some acc =>
      match (x.locks acc.lock).holders.find? fun h => h.task = i with
      | some h =>
          if G.refused a then
            none
          else
            (G.step (G.restore acc.lock h.seen x.state) a).map fun s =>
              { x with state := s }.put acc.lock ((x.locks acc.lock).release i)
      | none =>
          if acc.tries && G.refused a && !(x.locks acc.lock).isFree then
            (G.step x.state a).map fun s => { x with state := s }
          else
            none

def Guarded.stepLocked (x : Locked ι κ σ) : LockAction ι κ α → Option (Locked ι κ σ)
  | .ask i => (G.guard x.state i).bind fun acc =>
      if acc.tries then none else ((x.locks acc.lock).ask i acc.mode).map (x.put acc.lock)
  | .grant k => ((x.locks k).grant x.state).map (x.put k)
  | .tryLock i => (G.guard x.state i).bind fun acc =>
      if acc.tries then ((x.locks acc.lock).tryLock i acc.mode x.state).map (x.put acc.lock)
      else none
  | .act i a => if G.takes i a then G.actLocked x i a else none

/-- The machine with its locks. -/
def Guarded.locked : Machine (Locked ι κ σ) (LockAction ι κ α) where
  init x := G.init x.state ∧ x.locks = fun _ => Lock.empty
  step := G.stepLocked

/-- What `Guarded.locked` can do. -/
inductive Guarded.Move (x : Locked ι κ σ) : LockAction ι κ α → Locked ι κ σ → Prop
  | ask {i : ι} {acc : Access κ} {l : Lock ι σ} (hguard : G.guard x.state i = some acc)
      (htries : acc.tries = false) (hl : (x.locks acc.lock).ask i acc.mode = some l) :
      Move x (.ask i) (x.put acc.lock l)
  | grant {k : κ} {l : Lock ι σ} (hl : (x.locks k).grant x.state = some l) :
      Move x (.grant k) (x.put k l)
  | tryLock {i : ι} {acc : Access κ} {l : Lock ι σ} (hguard : G.guard x.state i = some acc)
      (htries : acc.tries = true) (hl : (x.locks acc.lock).tryLock i acc.mode x.state = some l) :
      Move x (.tryLock i) (x.put acc.lock l)
  | free {i : ι} {a : α} {s : σ} (htakes : G.takes i a = true) (hguard : G.guard x.state i = none)
      (hs : G.step x.state a = some s) : Move x (.act i a) { x with state := s }
  | commit {i : ι} {a : α} {acc : Access κ} {h : Holder ι σ} {s : σ} (htakes : G.takes i a = true)
      (hguard : G.guard x.state i = some acc) (hmem : h ∈ (x.locks acc.lock).holders)
      (htask : h.task = i) (hs : G.step (G.restore acc.lock h.seen x.state) a = some s) :
      Move x (.act i a) ({ x with state := s }.put acc.lock ((x.locks acc.lock).release i))
  | refused {i : ι} {a : α} {acc : Access κ} {s : σ} (htakes : G.takes i a = true)
      (hguard : G.guard x.state i = some acc) (htries : acc.tries = true)
      (hrefused : G.refused a = true) (hout : ∀ h ∈ (x.locks acc.lock).holders, h.task ≠ i)
      (hs : G.step x.state a = some s) : Move x (.act i a) { x with state := s }

variable {G} {x y : Locked ι κ σ} {act : LockAction ι κ α}

lemma Guarded.step_move (h : G.locked.step x act = some y) : G.Move x act y := by
  cases act with
  | ask i =>
      obtain ⟨acc, hguard, h⟩ := Option.bind_eq_some_iff.mp h
      split at h
      · cases h
      · obtain ⟨l, hl, rfl⟩ := Option.map_eq_some_iff.mp h
        exact .ask hguard (Bool.eq_false_iff.mpr ‹_›) hl
  | grant k =>
      obtain ⟨l, hl, rfl⟩ := Option.map_eq_some_iff.mp h
      exact .grant hl
  | tryLock i =>
      obtain ⟨acc, hguard, h⟩ := Option.bind_eq_some_iff.mp h
      split at h
      · obtain ⟨l, hl, rfl⟩ := Option.map_eq_some_iff.mp h
        exact .tryLock hguard ‹_› hl
      · cases h
  | act i a =>
      simp only [Guarded.locked, Guarded.stepLocked] at h
      split at h
      · rename_i htakes
        simp only [Guarded.actLocked] at h
        split at h
        · obtain ⟨s, hs, rfl⟩ := Option.map_eq_some_iff.mp h
          exact .free htakes ‹_› hs
        · rename_i acc hguard
          split at h
          · rename_i holder hfind
            split at h
            · cases h
            · obtain ⟨s, hs, rfl⟩ := Option.map_eq_some_iff.mp h
              exact .commit htakes hguard (List.mem_of_find?_eq_some hfind)
                (by simpa using List.find?_some hfind) hs
          · rename_i hfind
            split at h
            · rename_i hcond
              obtain ⟨⟨htries, hrefused⟩, -⟩ : (acc.tries = true ∧ G.refused a = true) ∧ _ := by
                simpa using hcond
              obtain ⟨s, hs, rfl⟩ := Option.map_eq_some_iff.mp h
              exact .refused htakes hguard htries hrefused
                (fun holder hmem => by simpa using List.find?_eq_none.mp hfind holder hmem) hs
            · cases h
      · cases h

/-! ## Serialisability -/

def Sound (G : Guarded ι κ σ α) (x : Locked ι κ σ) : Prop :=
  ∀ k, (x.locks k).Sound G x.state k

omit [DecidableEq ι] in
lemma Sound.put (hx : Sound G x) {k : κ} {l : Lock ι σ} (hl : l.Sound G x.state k) :
    Sound G (x.put k l) := by
  intro k'
  rcases eq_or_ne k' k with rfl | hne
  · simpa [Locked.put] using hl
  · simpa [Locked.put, hne] using hx k'

/-- What is granted stays current until it is let go. -/
theorem Sound.step (hG : Disciplined G) (hx : Sound G x) (h : G.locked.step x act = some y) :
    Sound G y := by
  cases Guarded.step_move h with
  | ask hguard htries hl => exact hx.put ((hx _).ask hguard htries hl)
  | grant hl => exact hx.put ((hx _).grant hG hl)
  | tryLock hguard _ hl => exact hx.put (.tryLock hG hguard hl)
  | free htakes hguard hs =>
      intro k
      refine (hx k).elsewhere hG htakes hs fun acc hacc => ?_
      rw [hguard] at hacc
      cases hacc
  | @commit i a acc holder s htakes hguard hmem htask hs =>
      rw [(hx _).current holder hmem] at hs
      intro k
      rcases eq_or_ne k acc.lock with rfl | hne
      · simpa [Locked.put] using (hx _).release hG htakes hs hmem htask
      · have hk : (x.locks k).Sound G s k := by
          refine (hx k).elsewhere hG htakes hs fun acc' hacc' => ?_
          cases hguard.symm.trans hacc'
          exact hne.symm
        simpa [Locked.put, hne] using hk
  | refused htakes hguard htries hrefused hout hs =>
      intro k
      refine (hx k).step hG htakes hs (fun hmem => ?_) fun _ =>
        hG.refused htakes hguard htries hrefused hs k
      rcases List.mem_append.mp hmem with hmem | hmem
      · obtain ⟨holder, hholder, rfl⟩ := List.mem_map.mp hmem
        obtain ⟨tries, hholds⟩ := (hx k).holds holder hholder
        cases hguard.symm.trans hholds
        exact hout holder hholder rfl
      · -- who tries does not wait
        obtain ⟨w, hw, rfl⟩ := List.mem_map.mp hmem
        cases hguard.symm.trans ((hx k).waits w hw)
        cases htries

omit [DecidableEq ι] [DecidableEq κ] in
lemma sound_empty (h : ∀ k, x.locks k = Lock.empty) : Sound G x := by
  intro k
  rw [h k]
  exact ⟨List.forall_mem_nil _, List.forall_mem_nil _, List.forall_mem_nil _⟩

variable {C : Locked ι κ σ → LockAction ι κ α → Prop} {D : σ → α → Prop}

theorem sound (hG : Disciplined G) (h : Reach G.locked C x) : Sound G x :=
  h.invariant (fun _ h0 => sound_empty (congrFun (And.right h0)))
    fun _ _ _ _ hi _ hs => hi.step hG hs

/-- **Serialisability.**  However the tasks hold their locks at the same time, the steps are made
one after the other, each at the moment its task lets go. -/
theorem serialisable (hG : Disciplined G) (hCD : ∀ x i a, C x (.act i a) → D x.state a)
    (h : Reach G.locked C x) : Reach G.toMachine D x.state := by
  refine h.invariant (I := fun x => Reach G.toMachine D x.state)
    (fun _ h0 => .init (And.left h0)) ?_
  intro x act y hr hi hc hxy
  have hx := sound hG hr
  cases Guarded.step_move hxy with
  | ask | grant | tryLock => exact hi
  | free _ _ hs | refused _ _ _ _ _ hs => exact .step hi (hCD _ _ _ hc) hs
  | commit _ _ hmem _ hs =>
      rw [(hx _).current _ hmem] at hs
      exact .step hi (hCD _ _ _ hc) hs

/-! ## Completeness -/

/-- Nobody has a lock or waits for one. -/
def Locked.unlocked (s : σ) : Locked ι κ σ := ⟨s, fun _ => Lock.empty⟩

/-- Alone, a task gets the lock it needs. -/
lemma Guarded.reach_held {s : σ} {i : ι} {acc : Access κ}
    (h : Reach G.locked Any (Locked.unlocked s)) (hguard : G.guard s i = some acc) :
    Reach G.locked Any ((Locked.unlocked s).put acc.lock (Lock.held i acc.mode s)) := by
  cases htries : acc.tries with
  | true =>
      refine h.step (a := .tryLock i) trivial ?_
      simp only [Guarded.locked, Guarded.stepLocked, Locked.unlocked, hguard, Option.bind_some,
        htries, if_pos, Lock.tryLock_empty, Option.map_some]
  | false =>
      obtain ⟨l, hask, hgrant⟩ := Lock.ask_grant_empty i acc.mode s
      have hasked : G.locked.step (Locked.unlocked s) (.ask i) =
          some ((Locked.unlocked s).put acc.lock l) := by
        simp only [Guarded.locked, Guarded.stepLocked, Locked.unlocked, hguard, Option.bind_some,
          htries, Bool.false_eq_true, if_false, hask, Option.map_some]
      refine (h.step trivial hasked).step (a := .grant acc.lock) trivial ?_
      simp only [Guarded.locked, Guarded.stepLocked, Locked.put, Locked.unlocked,
        Function.update_self, hgrant, Option.map_some, Function.update_idem]

/-- Having taken its step, it leaves no trace in the locks. -/
lemma Guarded.act_held (hG : Disciplined G) {s s' : σ} {i : ι} {a : α} {acc : Access κ}
    (htakes : G.takes i a = true) (hrefused : G.refused a = false)
    (hguard : G.guard s i = some acc) (hs : G.step s a = some s') :
    G.locked.step ((Locked.unlocked s).put acc.lock (Lock.held i acc.mode s)) (.act i a) =
      some (Locked.unlocked s') := by
  have hfind : ((Lock.held i acc.mode s).holders.find? fun h => h.task = i) =
      some ⟨i, acc.mode, s⟩ := by
    simp [Lock.held]
  simp only [Guarded.locked, Guarded.stepLocked, htakes, if_pos, Guarded.actLocked, Locked.put,
    Locked.unlocked, hguard, Function.update_self, hfind, hrefused, Bool.false_eq_true, if_false,
    hG.restore_self, hs, Option.map_some, Lock.release_held, Function.update_idem]
  rw [Function.update_eq_self]

/-- **Completeness.**  Steps that are taken one after the other, none in vain, can be taken with
the locks. -/
theorem sequential (hG : Disciplined G) (htask : ∀ a, ∃ i, G.takes i a = true) {s : σ}
    (h : Reach G.toMachine (fun _ a => G.refused a = false) s) :
    Reach G.locked Any (Locked.unlocked s) := by
  induction h with
  | init h0 => exact .init ⟨h0, rfl⟩
  | @step s s' a hr hc hs ih =>
      obtain ⟨i, htakes⟩ := htask a
      cases hguard : G.guard s i with
      | none =>
          refine ih.step (a := .act i a) trivial ?_
          simp only [Guarded.locked, Guarded.stepLocked, htakes, if_pos, Guarded.actLocked,
            Locked.unlocked, hguard, hs, Option.map_some]
      | some acc =>
          exact (Guarded.reach_held ih hguard).step trivial
            (Guarded.act_held hG htakes hc hguard hs)

/-! ## Progress -/

/-- A task that needs a lock can take its step once it has it. -/
def Guarded.Live (G : Guarded ι κ σ α) : Prop :=
  ∀ s i acc, G.guard s i = some acc →
    ∃ a, G.takes i a = true ∧ G.refused a = false ∧ (G.step s a).isSome = true

/-- A holder takes its step. -/
lemma Guarded.isSome_act (hx : Sound G x) {k : κ} {holder : Holder ι σ} {a : α}
    (hmem : holder ∈ (x.locks k).holders) (htakes : G.takes holder.task a = true)
    (hrefused : G.refused a = false) (hstep : (G.step x.state a).isSome = true) :
    (G.locked.step x (.act holder.task a)).isSome = true := by
  obtain ⟨tries, hguard⟩ := (hx k).holds holder hmem
  obtain ⟨first, hfind⟩ : ∃ first,
      ((x.locks k).holders.find? fun h => h.task = holder.task) = some first :=
    Option.isSome_iff_exists.mp (List.find?_isSome.mpr ⟨holder, hmem, by simp⟩)
  have hcurrent := (hx k).current first (List.mem_of_find?_eq_some hfind)
  simp only [Guarded.locked, Guarded.stepLocked, htakes, if_pos, Guarded.actLocked, hguard, hfind,
    hrefused, Bool.false_eq_true, if_false, hcurrent, Option.isSome_map]
  exact hstep

/-- **No deadlock.**  One of the tasks that have a lock can take its step, or the first who waits
for it is let in. -/
theorem progress (hG : Disciplined G) (hlive : G.Live) (h : Reach G.locked C x) {k : κ}
    (hbusy : (x.locks k).isFree = false) :
    (∃ holder ∈ (x.locks k).holders, ∃ a,
        (G.locked.step x (.act holder.task a)).isSome = true) ∨
      (G.locked.step x (.grant k)).isSome = true := by
  have hx := sound hG h
  cases hholders : (x.locks k).holders with
  | nil =>
      refine .inr ?_
      simp only [Guarded.locked, Guarded.stepLocked, Option.isSome_map]
      exact Lock.isSome_grant hbusy hholders
  | cons holder holders =>
      have hmem : holder ∈ (x.locks k).holders := hholders ▸ List.mem_cons_self
      obtain ⟨tries, hguard⟩ := (hx k).holds holder hmem
      obtain ⟨a, htakes, hrefused, hstep⟩ := hlive _ _ _ hguard
      exact .inl ⟨holder, List.mem_cons_self, a,
        Guarded.isSome_act hx hmem htakes hrefused hstep⟩

end Locking
