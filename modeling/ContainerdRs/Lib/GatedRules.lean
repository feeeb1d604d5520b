import Mathlib.Order.Monotone.Defs
import Mathlib.Order.SetNotation

/-!
# Rules behind gates

A list of allow and deny rules, each switched on or off by a gate: a call is permitted when an
allow rule that is on applies to it and no deny rule that is on does.  Opening the gate further
may switch rules off as well as on.

* `permits_mono` — more is permitted under a wider gate, when deny rules are only switched off
  and every allow rule that is switched off is covered by others.
-/

set_option autoImplicit false

/-- Rules with the gates under which they are on. -/
structure GatedRules (Gate Rule Call : Type) where
  rules : List Rule
  on : Gate → Rule → Prop
  allow : Rule → Prop
  applies : Rule → Call → Prop

namespace GatedRules

variable {Gate Rule Call : Type} [Preorder Gate]

/-- Some rule that is on allows the call and none denies it. -/
def Permits (p : GatedRules Gate Rule Call) (g : Gate) (c : Call) : Prop :=
  (∃ r ∈ p.rules, p.on g r ∧ p.allow r ∧ p.applies r c) ∧
    ∀ r ∈ p.rules, p.on g r → p.applies r c → p.allow r

/-- Whatever a wider gate switches off does not matter for what is permitted. -/
structure Compensated (p : GatedRules Gate Rule Call) : Prop where
  /-- A wider gate switches no deny rule on. -/
  deny : ∀ r ∈ p.rules, ¬ p.allow r → ∀ {g g' : Gate}, g ≤ g' → p.on g' r → p.on g r
  /-- The calls of an allow rule that is switched off are allowed by another one. -/
  cover : ∀ r ∈ p.rules, p.allow r → ∀ {g g' : Gate}, g ≤ g' → p.on g r → ¬ p.on g' r →
    ∀ c, p.applies r c → ∃ s ∈ p.rules, p.on g' s ∧ p.allow s ∧ p.applies s c

theorem Compensated.permits_mono {p : GatedRules Gate Rule Call} (hp : p.Compensated) :
    Monotone p.Permits := by
  intro g g' hle c hpermits
  obtain ⟨⟨r, hr, hon, hallow, happ⟩, hdeny⟩ := hpermits
  constructor
  · by_cases hon' : p.on g' r
    · exact ⟨r, hr, hon', hallow, happ⟩
    · exact hp.cover r hr hallow hle hon hon' c happ
  · intro s hs hon' hmatch
    by_contra hno
    exact hno (hdeny s hs (hp.deny s hs hno hle hon') hmatch)

end GatedRules
