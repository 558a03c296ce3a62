import Mathlib.Data.List.Infix
import OrePool.Core.Observer

/-!
# Channels

Two machines with an unbounded channel between them.  What the first has sent is a list that only
grows, and the second takes the messages from it one at a time, in their order; otherwise each goes
its own way.  How many have been taken says all there is to say about the channel.

* `Channel.sender_reach` — the sender's part of a run is a run of the sender.
* `Channel.receiver_reach` — the receiver's part is one of the receiver, which has taken just the
  messages from the front: none twice, none left out, none that has not been sent.
* `Machine.restrict` — where one of the two waits for the other in another way, a condition on the
  state of both.
-/

namespace Interleaving

variable {σ α τ β μ : Type}

/-- A channel from `M` to `N`: what `M` has sent, and how `N` takes a message. -/
structure Channel (M : Machine σ α) (N : Machine τ β) (μ : Type) where
  sent : σ → List μ
  take : μ → β
  taken : β → Option μ
  taken_take : ∀ m, taken (take m) = some m
  grows : ∀ s a s', M.step s a = some s' → sent s <+: sent s'

/-- Both ends and the number of messages taken. -/
structure Linked (σ τ : Type) where
  sender : σ
  taken : ℕ
  receiver : τ

/-- The sender moves, the receiver takes the next message, or it does something else. -/
inductive LinkedAction (α β : Type)
  | sender (a : α)
  | take
  | receiver (b : β)

variable {M : Machine σ α} {N : Machine τ β} (K : Channel M N μ)

/-- Both machines at once. -/
def Channel.machine : Machine (Linked σ τ) (LinkedAction α β) where
  init x := M.init x.sender ∧ x.taken = 0 ∧ N.init x.receiver
  step x
    | .sender a => (M.step x.sender a).map fun s => { x with sender := s }
    | .take =>
        (K.sent x.sender)[x.taken]?.bind fun m => (N.step x.receiver (K.take m)).map fun t =>
          { x with receiver := t, taken := x.taken + 1 }
    | .receiver b =>
        if (K.taken b).isNone then
          (N.step x.receiver b).map fun t => { x with receiver := t }
        else
          none

/-- What the receiver has taken. -/
def Channel.inbox : Observer τ β (List μ) where
  start _ := []
  note _ b ms := ms ++ (K.taken b).toList

/-- What `Channel.machine` can do. -/
inductive Channel.Move (x : Linked σ τ) : LinkedAction α β → Linked σ τ → Prop
  | sender {a : α} {s : σ} (hs : M.step x.sender a = some s) :
      Move x (.sender a) { x with sender := s }
  | take {m : μ} {t : τ} (hm : (K.sent x.sender)[x.taken]? = some m)
      (hs : N.step x.receiver (K.take m) = some t) :
      Move x .take { x with receiver := t, taken := x.taken + 1 }
  | receiver {b : β} {t : τ} (hnone : K.taken b = none) (hs : N.step x.receiver b = some t) :
      Move x (.receiver b) { x with receiver := t }

variable {K}

lemma Channel.step_move {x y : Linked σ τ} {act : LinkedAction α β}
    (h : K.machine.step x act = some y) : Channel.Move K x act y := by
  cases act with
  | sender a =>
      obtain ⟨s, hs, rfl⟩ := Option.map_eq_some_iff.mp h
      exact .sender hs
  | take =>
      obtain ⟨m, hm, h⟩ := Option.bind_eq_some_iff.mp h
      obtain ⟨t, hs, rfl⟩ := Option.map_eq_some_iff.mp h
      exact .take hm hs
  | receiver b =>
      simp only [Channel.machine] at h
      split at h
      · obtain ⟨t, hs, rfl⟩ := Option.map_eq_some_iff.mp h
        exact .receiver (Option.isNone_iff_eq_none.mp ‹_›) hs
      · cases h

/-! ## Runs of the two ends -/

variable {C : Linked σ τ → LinkedAction α β → Prop} {D : σ → α → Prop} {E : τ × List μ → β → Prop}

/-- **The sender.** -/
theorem Channel.sender_reach (hD : ∀ x a, C x (.sender a) → D x.sender a) {x : Linked σ τ}
    (h : Reach K.machine C x) : Reach M D x.sender := by
  refine h.invariant (I := fun x => Reach M D x.sender) (fun _ h0 => .init (And.left h0)) ?_
  intro x act y _ hi hc hxy
  cases Channel.step_move hxy with
  | sender hs => exact .step hi (hD _ _ hc) hs
  | take _ _ | receiver _ _ => exact hi

/-- No more is taken than has been sent. -/
lemma Channel.taken_le {x : Linked σ τ} (h : Reach K.machine C x) :
    x.taken ≤ (K.sent x.sender).length := by
  refine h.invariant (I := fun x => x.taken ≤ (K.sent x.sender).length) ?_ ?_
  · rintro x ⟨-, h0, -⟩
    exact h0.trans_le (Nat.zero_le _)
  · intro x act y _ hi _ hxy
    cases Channel.step_move hxy with
    | sender hs => exact hi.trans (K.grows _ _ _ hs).length_le
    | take hm _ => exact (List.getElem?_eq_some_iff.mp hm).1
    | receiver _ _ => exact hi

/-- **The receiver.**  It has taken the messages from the front. -/
theorem Channel.receiver_reach
    (htake : ∀ x m, Reach K.machine C x → C x .take → m ∈ K.sent x.sender →
      E (x.receiver, (K.sent x.sender).take x.taken) (K.take m))
    (hother : ∀ x b, Reach K.machine C x → C x (.receiver b) → K.taken b = none →
      E (x.receiver, (K.sent x.sender).take x.taken) b)
    {x : Linked σ τ} (h : Reach K.machine C x) :
    Reach (N.observe K.inbox) E (x.receiver, (K.sent x.sender).take x.taken) := by
  refine h.invariant (I := fun x => Reach (N.observe K.inbox) E
    (x.receiver, (K.sent x.sender).take x.taken)) ?_ ?_
  · rintro x ⟨-, h0, hinit⟩
    exact .init ⟨hinit, by rw [h0]; rfl⟩
  · intro x act y hr hi hc hxy
    cases Channel.step_move hxy with
    | sender hs =>
        obtain ⟨new, hnew⟩ := K.grows _ _ _ hs
        have hprefix : (K.sent x.sender ++ new).take x.taken = (K.sent x.sender).take x.taken :=
          List.take_append_of_le_length (Channel.taken_le hr)
        rw [← hnew, hprefix]
        exact hi
    | @take m t hm hs =>
        refine .step hi (htake _ _ hr hc (List.mem_of_getElem? hm)) ?_
        simp [Machine.observe, hs, Channel.inbox, K.taken_take, List.take_add_one, hm]
    | @receiver b t hnone hs =>
        refine .step hi (hother _ _ hr hc hnone) ?_
        simp [Machine.observe, hs, Channel.inbox, hnone]

/-! ## Waiting -/

section Restrict

variable {p : σ → α → Bool} {D : σ → α → Prop}

/-- `M` where an action has to wait for `p`. -/
def Machine.restrict (M : Machine σ α) (p : σ → α → Bool) : Machine σ α where
  init := M.init
  step s a := if p s a then M.step s a else none

lemma Machine.restrict_step {s s' : σ} {a : α} (h : (M.restrict p).step s a = some s') :
    p s a = true ∧ M.step s a = some s' := by
  simp only [Machine.restrict] at h
  split at h
  · exact ⟨‹_›, h⟩
  · cases h

/-- A run that waits is a run. -/
theorem Reach.of_restrict {s : σ} (h : Reach (M.restrict p) D s) : Reach M D s := by
  induction h with
  | init h0 => exact .init h0
  | step _ hc hs ih => exact .step ih hc (Machine.restrict_step hs).2

end Restrict

end Interleaving
