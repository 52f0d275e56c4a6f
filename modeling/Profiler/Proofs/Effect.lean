/-
# What a step that may fail leaves alone

What a step changed before it failed stays changed, so what is known of the
state after it has to hold whatever came of it. A step keeps a property if it
holds afterwards wherever it held before (`Effect.Keeps`), and leaves alone
what is seen of the state if that is the same afterwards (`Effect.Leaves`).
Both are put together from those of the parts of a step.

Key definitions: `Effect.Keeps`, `Effect.Leaves`, `Effect.Gives`.
Key theorems: `Effect.Keeps.bind`, `Effect.Leaves.bind`, `Effect.Leaves.keeps`,
`Effect.Leaves.onFailure`, `Effect.gives_bind`, `Effect.Gives.bind`,
`Effect.Gives.bind_of_leaves`.
-/
import Profiler.Effect

namespace Profiler
namespace Effect

variable {σ τ υ α β : Type}

/-- Whatever comes of the step, what held before it holds after it. -/
def Keeps (P : σ → Prop) (x : Effect σ α) : Prop := ∀ s, P s → P (x s).2

/-- Whatever comes of the step, what is seen of the state stays as it is. -/
def Leaves (view : σ → τ) (x : Effect σ α) : Prop := ∀ s, view (x s).2 = view s

/-- If the step succeeds, its result and the state after it are of this kind. -/
def Gives (x : Effect σ α) (Q : α → σ → Prop) : Prop := ∀ s a, (x s).1 = .ok a → Q a (x s).2

/-! ### One step after another -/

section Bind

variable {x : Effect σ α} {f : α → Effect σ β} {s s' : σ}

theorem bind_apply (x : Effect σ α) (f : α → Effect σ β) (s : σ) :
    (x >>= f) s = ExceptT.bindCont f (x s).1 (x s).2 := rfl

theorem bind_of_ok {a : α} (h : x s = (.ok a, s')) : (x >>= f) s = f a s' := by
  rw [bind_apply, h]
  rfl

theorem bind_of_error {e : Error} (h : x s = (.error e, s')) :
    (x >>= f) s = (.error e, s') := by
  rw [bind_apply, h]
  rfl

theorem get_bind (f : σ → Effect σ β) (s : σ) : ((get : Effect σ σ) >>= f) s = f s s := rfl

theorem bind_eq_ok {b : β} (h : (x >>= f) s = (.ok b, s')) :
    ∃ a s₁, x s = (.ok a, s₁) ∧ f a s₁ = (.ok b, s') := by
  cases hx : x s with
  | mk r s₁ =>
    cases r with
    | ok a => exact ⟨a, s₁, rfl, (bind_of_ok hx).symm.trans h⟩
    | error e =>
      rw [bind_of_error hx] at h
      cases h

theorem observe_eq {r : Except Error α} (h : x s = (r, s')) : observe x s = (.ok r, s') := by
  show (Except.ok (x s).1, (x s).2) = _
  rw [h]

theorem onFailure_of_ok {cleanup : Effect σ Unit} {a : α} (h : x s = (.ok a, s')) :
    onFailure x cleanup s = (.ok a, s') := by
  rw [onFailure, bind_of_ok (observe_eq h)]
  rfl

theorem onFailure_of_error {cleanup : Effect σ Unit} {e : Error} {s'' : σ}
    (h : x s = (.error e, s')) (hcleanup : cleanup s' = (.ok (), s'')) :
    onFailure x cleanup s = (.error e, s'') := by
  rw [onFailure, bind_of_ok (observe_eq h)]
  exact bind_of_ok hcleanup

end Bind

/-! ### Properties that are kept -/

section Keeps

variable {P : σ → Prop} {x : Effect σ α}

theorem keeps_pure (a : α) : Keeps P (pure a) := fun _ h => h

theorem keeps_throw (e : Error) : Keeps P (throw e : Effect σ α) := fun _ h => h

theorem keeps_refuse (cause : Misuse) : Keeps P (refuse cause : Effect σ α) := fun _ h => h

theorem keeps_ofExcept (r : Except Error α) : Keeps P (ofExcept r) := fun _ h => h

/-- What holds after a step holds after those that follow it and keep it. -/
theorem Keeps.after {f : α → Effect σ β} {s : σ} (hx : P (x s).2) (hf : ∀ a, Keeps P (f a)) :
    P ((x >>= f) s).2 := by
  cases h : x s with
  | mk r s' =>
    rw [h] at hx
    cases r with
    | ok a =>
      rw [bind_of_ok h]
      exact hf a s' hx
    | error e =>
      rw [bind_of_error h]
      exact hx

theorem Keeps.bind {f : α → Effect σ β} (hx : Keeps P x) (hf : ∀ a, Keeps P (f a)) :
    Keeps P (x >>= f) := fun s hs => Keeps.after (hx s hs) hf

/-- What follows a step has to keep the property only for results that the
step can have. -/
theorem Keeps.bind_of_gives {f : α → Effect σ β} {Q : α → Prop} (hx : Keeps P x)
    (hQ : x.Gives fun a _ => Q a) (hf : ∀ a, Q a → Keeps P (f a)) : Keeps P (x >>= f) := by
  intro s hs
  have hafter := hx s hs
  cases h : x s with
  | mk r s' =>
    rw [h] at hafter
    cases r with
    | ok a =>
      rw [bind_of_ok h]
      exact hf a (hQ s a (by rw [h])) s' hafter
    | error e =>
      rw [bind_of_error h]
      exact hafter

theorem Keeps.guard {c : Prop} [Decidable c] {x : Effect σ Unit} {f : Unit → Effect σ β}
    (hx : Keeps P x) (hf : Keeps P (f ())) : Keeps P (if c then x >>= f else f ()) := by
  split
  · exact hx.bind fun _ => hf
  · exact hf

theorem Keeps.observe (hx : Keeps P x) : Keeps P (observe x) := hx

theorem Keeps.onFailure {cleanup : Effect σ Unit} (hx : Keeps P x) (hcleanup : Keeps P cleanup) :
    Keeps P (onFailure x cleanup) := by
  refine Keeps.bind hx.observe fun r => ?_
  cases r with
  | ok a => exact keeps_pure a
  | error e => exact hcleanup.bind fun _ => keeps_throw e

end Keeps

/-! ### What is left alone -/

section Leaves

variable {view : σ → τ} {x : Effect σ α}

theorem leaves_iff : Leaves view x ↔ ∀ v, Keeps (fun s => view s = v) x :=
  ⟨fun h _ s hs => (h s).trans hs, fun h s => h (view s) s rfl⟩

theorem Leaves.keeps (h : Leaves view x) {P : σ → Prop}
    (hP : ∀ s s', view s' = view s → P s → P s') : Keeps P x := fun s hs => hP s (x s).2 (h s) hs

theorem Leaves.of (h : Leaves view x) {view' : σ → υ} (hview : ∀ s s', view s' = view s →
    view' s' = view' s) : Leaves view' x := fun s => hview s (x s).2 (h s)

theorem leaves_pure (a : α) : Leaves view (pure a) := fun _ => rfl

theorem leaves_throw (e : Error) : Leaves view (throw e : Effect σ α) := fun _ => rfl

theorem leaves_refuse (cause : Misuse) : Leaves view (refuse cause : Effect σ α) := fun _ => rfl

theorem leaves_ofExcept (r : Except Error α) : Leaves view (ofExcept r) := fun _ => rfl

theorem Leaves.bind {f : α → Effect σ β} (hx : Leaves view x) (hf : ∀ a, Leaves view (f a)) :
    Leaves view (x >>= f) :=
  leaves_iff.mpr fun v => (leaves_iff.mp hx v).bind fun a => leaves_iff.mp (hf a) v

theorem Leaves.guard {c : Prop} [Decidable c] {x : Effect σ Unit} {f : Unit → Effect σ β}
    (hx : Leaves view x) (hf : Leaves view (f ())) :
    Leaves view (if c then x >>= f else f ()) :=
  leaves_iff.mpr fun v => (leaves_iff.mp hx v).guard (leaves_iff.mp hf v)

theorem Leaves.observe (hx : Leaves view x) : Leaves view (observe x) := hx

theorem Leaves.onFailure {cleanup : Effect σ Unit} (hx : Leaves view x)
    (hcleanup : Leaves view cleanup) : Leaves view (onFailure x cleanup) :=
  leaves_iff.mpr fun v => (leaves_iff.mp hx v).onFailure (leaves_iff.mp hcleanup v)

end Leaves

/-! ### Results -/

section Gives

variable {x : Effect σ α} {Q : α → σ → Prop}

theorem gives_pure {a : α} (h : ∀ s, Q a s) : Gives (pure a) Q := by
  rintro s b ⟨⟩
  exact h s

theorem Gives.imp {R : α → σ → Prop} (h : x.Gives Q) (hR : ∀ a s, Q a s → R a s) : x.Gives R :=
  fun s a ha => hR a _ (h s a ha)

/-- The last step may rely on what the results before it are. -/
theorem Gives.bind {P : α → Prop} {f : α → Effect σ β} {R : β → σ → Prop}
    (hx : x.Gives fun a _ => P a) (hf : ∀ a, P a → (f a).Gives R) : (x >>= f).Gives R := by
  intro s b hb
  cases h : x s with
  | mk r s' =>
    cases r with
    | ok a =>
      rw [bind_of_ok h] at hb ⊢
      exact hf a (hx s a (by rw [h])) s' b hb
    | error e =>
      rw [bind_of_error h] at hb
      cases hb

theorem gives_bind {f : α → Effect σ β} {R : β → σ → Prop} (hf : ∀ a, (f a).Gives R) :
    (x >>= f).Gives R :=
  Gives.bind (P := fun _ => True) (fun _ _ _ => trivial) fun a _ => hf a

/-- What was found out about a part of the state still holds after steps that
leave the part alone. -/
theorem Gives.bind_of_leaves {view : σ → τ} {P : α → τ → Prop} {f : α → Effect σ β}
    {R : α → β → σ → Prop} (hx : x.Gives fun a s => P a (view s)) (hleaves : ∀ a, Leaves view (f a))
    (hf : ∀ a, (f a).Gives (R a)) : (x >>= f).Gives fun b s => ∃ a, P a (view s) ∧ R a b s := by
  intro s b hb
  cases h : x s with
  | mk r s' =>
    cases r with
    | ok a =>
      rw [bind_of_ok h] at hb ⊢
      have hpast := hx s a (by rw [h])
      rw [h] at hpast
      refine ⟨a, ?_, hf a s' b hb⟩
      rw [hleaves a s']
      exact hpast
    | error e =>
      rw [bind_of_error h] at hb
      cases hb

theorem gives_guard {c : Prop} [Decidable c] {x : Effect σ Unit} {f : Unit → Effect σ β}
    {R : β → σ → Prop} (hf : (f ()).Gives R) : Gives (if c then x >>= f else f ()) R := by
  split
  · exact gives_bind fun _ => hf
  · exact hf

theorem gives_unless {c : Prop} [Decidable c] {cause : Misuse} {f : Unit → Effect σ β}
    {R : β → σ → Prop} (hf : ¬ c → (f ()).Gives R) :
    Gives (if c then refuse cause >>= f else f ()) R := by
  split
  · rintro s b ⟨⟩
  · next hc => exact hf hc

end Gives

end Effect
end Profiler
