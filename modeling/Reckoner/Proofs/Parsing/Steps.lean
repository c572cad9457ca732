import Reckoner.Proofs.Parsing.Simulations

/-!
# More steps change nothing

A parser that ends for another reason than the bound on its steps ends in the same way under any
greater bound. So an end may be found with as many steps as is convenient: `SettlesTo` says that all
great enough bounds lead to it, and where the cursor stands on a token of a terminated sequence,
reading under the bound that it sets itself leads there too.
-/

namespace Reckoner.Parser

variable {α β : Type}

/-- An end with another result. -/
def mapValue (φ : α → β) : EStateM.Result Stop State α → EStateM.Result Stop State β
  | .ok a s => .ok (φ a) s
  | .error e s => .error e s

/-- The second parser ends as the first one does, unless the first one runs out of steps. -/
def Extends (φ : α → β) (p : Parser α) (q : Parser β) : Prop :=
  ∀ s, (∀ s', p s ≠ .error .outOfFuel s') → q s = mapValue φ (p s)

namespace Extends

theorem refl (p : Parser α) : Extends id p p := by
  intro s _
  cases p s <;> rfl

theorem throw (φ : α → β) (e : Stop) : Extends φ (throw e) (throw e) := fun _ _ => rfl

/-- Two parsers in a row can be extended one by one. -/
theorem bind {γ δ : Type} {φ : α → β} {ψ : γ → δ} {p : Parser α} {q : Parser β}
    {f : α → Parser γ} {g : β → Parser δ} (hp : Extends φ p q)
    (hf : ∀ a, Extends ψ (f a) (g (φ a))) : Extends ψ (p >>= f) (q >>= g) := by
  intro s hs
  rw [bind_apply] at hs
  cases hx : p s with
  | ok a s' =>
    have hq : q s = .ok (φ a) s' := by rw [hp s (by simp [hx]), hx, mapValue]
    rw [bind_of_ok hx, bind_of_ok hq]
    exact hf a s' (by simpa only [hx] using hs)
  | error e s' =>
    have hq : q s = .error e s' := by rw [hp s (by simpa [hx] using hs), hx, mapValue]
    rw [bind_of_error hx, bind_of_error hq]
    rfl

theorem reject (φ : α → β) (cause : Lexeme → Cause) :
    Extends φ (reject cause) (reject cause) := (refl current).bind fun _ => throw φ _

/-- The same function is looked up. -/
theorem lookUp {φ : α → β} {p : Token → Function → Parser α} {q : Token → Function → Parser β}
    (hp : ∀ t f, Extends φ (p t f) (q t f)) : Extends φ (lookUp p) (lookUp q) := by
  refine (refl current).bind fun t => ?_
  dsimp only [id]
  cases Function.ofName? (t.name?.getD "None") with
  | none => exact reject φ _
  | some f => exact hp t f

/-- With results that stay, a parser that did not run out of steps is extended to the same end. -/
theorem eq {p q : Parser α} (h : Extends id p q) {s : State}
    (hs : ∀ s', p s ≠ .error .outOfFuel s') : q s = p s := by
  rw [h s hs]
  cases p s <;> rfl

/-- A name is the start of a call under either bound. -/
theorem afterName {n m : Nat} (name : String) (span : Span)
    (hcall : Extends id (Rule.call.readWithin n) (Rule.call.readWithin m)) :
    Extends id (afterName n name span) (afterName m name span) :=
  (refl (peek 1)).bind fun next =>
    completes_id.ite (by simp) (by simp) next hcall (refl _)

end Extends

/-- Allowing more steps is a simulation. -/
def extendsSimulation (steps : Nat) : Simulation id id steps where
  Rel := Extends
  completes := completes_id
  bind := .bind
  pure _ _ _ _ := rfl
  exhausted _ _ _ s h := absurd rfl (h s)
  missing ht hv := by
    obtain rfl := Lexeme.number.inj (ht.symm.trans hv)
    exact .throw _ .missingValue
  current := .refl current
  advance := .refl advance
  enter := .refl enter
  leave levels := .refl (leave levels)
  allocate e := by
    rw [Expr.relocate_id, funext Expr.relocate_id]
    exact .refl (allocate e)
  reject φ cause _ := .reject φ cause
  lookUp := .lookUp
  afterName name span hcall := by
    rw [funext Expr.relocate_id] at hcall ⊢
    exact .afterName name span hcall

/-- More steps extend the reading of a sum up to the end of the input. -/
theorem extends_sum_of_le {n m : Nat} (h : n ≤ m) : Extends id
    (Rule.sum.readWithin n >>= afterSum) (Rule.sum.readWithin m >>= afterSum) := by
  obtain ⟨k, rfl⟩ := Nat.exists_eq_add_of_le h
  have hext : Extends (Expr.relocate id) _ _ := (extendsSimulation k).sum n
  rwa [funext Expr.relocate_id] at hext

/-- More steps extend the reading of every rule. -/
theorem Rule.extends_of_le (r : Rule) {n m : Nat} (h : n ≤ m) :
    Extends id (r.readWithin n) (r.readWithin m) := by
  obtain ⟨k, rfl⟩ := Nat.exists_eq_add_of_le h
  have hext : Extends (Expr.relocate id) _ _ := (extendsSimulation k).rule n r
  rwa [funext Expr.relocate_id, r.relocate_id] at hext

/-- All great enough bounds on the steps lead to one end. -/
def SettlesTo (p : Nat → Parser α) (s : State) (x : EStateM.Result Stop State α) : Prop :=
  ∃ N, ∀ n, N ≤ n → p n s = x

namespace SettlesTo

variable {p q : Nat → Parser α} {s s' : State} {x : EStateM.Result Stop State α}

/-- An end that needs no steps. -/
theorem of_eq (h : ∀ n, p n s = x) : SettlesTo p s x := ⟨0, fun n _ => h n⟩

theorem of_forall_le (N : Nat) (h : ∀ n, N ≤ n → p n s = x) : SettlesTo p s x := ⟨N, h⟩

/-- One more step is no matter. -/
theorem of_succ (h : SettlesTo (fun n => p (n + 1)) s x) : SettlesTo p s x := by
  obtain ⟨N, hN⟩ := h
  refine ⟨N + 1, fun n hn => ?_⟩
  obtain ⟨m, rfl⟩ := Nat.exists_eq_add_of_le' (show 1 ≤ n by omega)
  exact hN m (by omega)

/-- Two parsers that do the same settle to the same. -/
theorem congr (h : SettlesTo q s' x) (he : ∀ n, p n s = q n s') : SettlesTo p s x := by
  obtain ⟨N, hN⟩ := h
  exact ⟨N, fun n hn => (he n).trans (hN n hn)⟩

/-- Two parsers in a row settle one by one. -/
theorem bind {f : Nat → α → Parser β} {a : α} {y : EStateM.Result Stop State β}
    (hp : SettlesTo p s (.ok a s')) (hf : SettlesTo (fun n => f n a) s' y) :
    SettlesTo (fun n => p n >>= f n) s y := by
  obtain ⟨N, hN⟩ := hp
  obtain ⟨M, hM⟩ := hf
  exact ⟨max N M, fun n hn => (bind_of_ok (hN n (by omega))).trans (hM n (by omega))⟩

end SettlesTo

/-- Where the cursor stands on a token, the bound that reading a sum sets itself leads to the end
that all great enough bounds lead to. -/
theorem read_sum_eq {s : State} {x : EStateM.Result Stop State Expr} (hs : s.Ready)
    (h : SettlesTo (fun n => Rule.sum.readWithin n) s x) : Rule.sum.read s = x := by
  obtain ⟨N, hN⟩ := h
  have horderly := Rule.sum.orderly hs (.inl rfl) rfl
  have hne : ∀ s', Rule.sum.readWithin s.fuel s ≠ .error .outOfFuel s' := by
    intro s' he
    rw [Rule.read, he] at horderly
    cases horderly.reason
  have hext := (Rule.sum.extends_of_le (Nat.le_max_left s.fuel N)).eq hne
  rw [Rule.read, ← hext]
  exact hN _ (Nat.le_max_right s.fuel N)

end Reckoner.Parser
