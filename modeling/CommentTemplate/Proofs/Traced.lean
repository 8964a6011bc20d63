import CommentTemplate.Policy
import CommentTemplate.Proofs.Outcome

/-!
# Computations that note their faults

A lenient compilation passes over what a strict one stops at.  Here it goes on and notes what it
passed over, in order.  The outcome under either policy is then read off: a lenient one is the
value, and a strict one is the error of the first fault, if there is any.

## Main definitions

* `Fault`, `Fault.error` — what may be passed over, and the error it is where it may not
* `Traced` — a value with the faults met on the way to it
* `Traced.outcome` — what a policy makes of it
* `Traced.KeptBy` — another computation gives the same, unless the first met a fault

## Main statements

* `outcome_bind` — the outcome of a sequence is the sequence of the outcomes
* `Traced.KeptBy.bind` — sequences of computations that are kept are kept
-/

namespace CommentTemplate

/-- What a lenient compilation passes over. -/
inductive Fault where
  /-- An included source that does not exist, and the place where it was looked for. -/
  | missing (place : Text)
  /-- An included source that exists and cannot be read. -/
  | unreadable (place cause : Text)
  /-- A tag at the limit or below. -/
  | tooDeep (kind : TagKind)
deriving DecidableEq, Repr

/-- The error that a fault is to a strict compilation with a limit. -/
def Fault.error (limit : Nat) : Fault → CompileError
  | missing place => .includeNotFound place
  | unreadable place cause => .unreadable place cause
  | tooDeep kind => .recursionLimit kind limit

/-- A value with the faults met on the way to it, in order. -/
structure Traced (α : Type) where
  /-- The value. -/
  value : α
  /-- The faults. -/
  faults : List Fault

namespace Traced

variable {α β : Type}

instance : Monad Traced where
  pure a := ⟨a, []⟩
  bind x f := ⟨(f x.value).value, x.faults ++ (f x.value).faults⟩

/-- A value given in spite of a fault. -/
def inspite (f : Fault) (a : α) : Traced α := ⟨a, [f]⟩

@[simp] theorem faults_bind (x : Traced α) (f : α → Traced β) :
    (x >>= f).faults = x.faults ++ (f x.value).faults := rfl

/-! ## Outcomes -/

/-- What a policy makes of a computation: a strict one the error of the first fault, if there is
one, and otherwise the value. -/
def outcome (policy : Policy) (x : Traced α) : Except CompileError α :=
  match x.faults with
  | [] => .ok x.value
  | f :: _ => if policy.strict then .error (f.error policy.limit) else .ok x.value

@[simp] theorem outcome_pure (policy : Policy) (a : α) :
    (pure a : Traced α).outcome policy = .ok a := rfl

@[simp] theorem outcome_inspite (policy : Policy) (f : Fault) (a : α) :
    (inspite f a).outcome policy =
      if policy.strict then .error (f.error policy.limit) else .ok a := rfl

theorem outcome_of_lenient {policy : Policy} (h : policy.strict = false) (x : Traced α) :
    x.outcome policy = .ok x.value := by
  unfold outcome
  split
  · rfl
  · rw [h]
    rfl

theorem outcome_of_faultless {x : Traced α} (h : x.faults = []) (policy : Policy) :
    x.outcome policy = .ok x.value := by
  unfold outcome
  rw [h]

theorem outcome_of_fault {x : Traced α} {f : Fault} {fs : List Fault} (h : x.faults = f :: fs)
    (policy : Policy) : x.outcome policy =
      if policy.strict then .error (f.error policy.limit) else .ok x.value := by
  unfold outcome
  rw [h]

/-- Whatever the policy, the outcome of a success is the value. -/
theorem value_of_outcome {policy : Policy} {x : Traced α} {a : α} (h : x.outcome policy = .ok a) :
    x.value = a := by
  unfold outcome at h
  split at h
  · exact Except.ok.inj h
  · split at h
    · cases h
    · exact Except.ok.inj h

/-- A strict policy makes an error of the first fault. -/
theorem outcome_eq_error_iff {policy : Policy} {x : Traced α} {e : CompileError} :
    x.outcome policy = .error e ↔
      policy.strict = true ∧ ∃ f, x.faults.head? = some f ∧ e = f.error policy.limit := by
  unfold outcome
  cases hs : policy.strict <;> cases x.faults <;> simp [eq_comm]

/-- What follows a computation without a fault is all there is to a sequence. -/
theorem bind_of_faultless {x : Traced α} (h : x.faults = []) (f : α → Traced β) :
    x >>= f = f x.value := by
  show Traced.mk (f x.value).value (x.faults ++ (f x.value).faults) = f x.value
  rw [h, List.nil_append]

/-- **The outcome of a sequence is the sequence of the outcomes**, whatever the policy. -/
theorem outcome_bind (policy : Policy) (x : Traced α) (f : α → Traced β) :
    (x >>= f).outcome policy = x.outcome policy >>= fun a => (f a).outcome policy := by
  cases hx : x.faults with
  | nil =>
      rw [bind_of_faultless hx, outcome_of_faultless hx]
      rfl
  | cons e es =>
      have hbind : (x >>= f).faults = e :: (es ++ (f x.value).faults) := by
        rw [faults_bind, hx, List.cons_append]
      rw [outcome_of_fault hx, outcome_of_fault hbind]
      cases hs : policy.strict with
      | true => rfl
      | false => exact (outcome_of_lenient hs (f x.value)).symm

/-! ## Computations that are kept -/

/-- `y` is the same computation as `x`, unless `x` met a fault. -/
def KeptBy (x y : Traced α) : Prop := x.faults = [] → y = x

theorem KeptBy.refl (x : Traced α) : x.KeptBy x := fun _ => rfl

/-- After a fault anything may happen. -/
theorem inspite_keptBy (f : Fault) (a : α) (y : Traced α) : (inspite f a).KeptBy y := nofun

/-- Sequences of computations that are kept are kept. -/
theorem KeptBy.bind {x y : Traced α} {f g : α → Traced β} (hx : x.KeptBy y)
    (hf : ∀ a, (f a).KeptBy (g a)) : (x >>= f).KeptBy (y >>= g) := by
  intro h
  rw [faults_bind, List.append_eq_nil_iff] at h
  obtain ⟨hnone, hrest⟩ := h
  rw [hx hnone, bind_of_faultless hnone, bind_of_faultless hnone]
  exact hf x.value hrest

end Traced

end CommentTemplate
