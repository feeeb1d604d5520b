import ContainerdRs.CoreTypes
import ContainerdRs.Cri.Lifecycle

/-!
# The state of a container under crun (`crates/runtime/src/crun.rs`)

`parse_state` and `probe`.  `serde_json` is not part of the repository: `fromSlice` stands for
`serde_json::from_slice`, and `Json` for the values it returns.

* `probe_eq_some` — a probe has an answer only from a call that succeeds with state JSON.
-/

set_option autoImplicit false

namespace ContainerdRs.Runtime.Crun

open ContainerdRs.Cri (RuntimeState)

/-- `serde_json::Value`.  The keys of an object are distinct. -/
inductive Json where
  | null
  | bool (b : Bool)
  | int (n : Int)
  | float
  | str (s : String)
  | arr (elems : List Json)
  | obj (fields : List (String × Json))

/-- `Value::get` of a key. -/
def Json.get (key : String) : Json → Option Json
  | .obj fields => (fields.find? fun f => f.1 == key).map (·.2)
  | _ => none

/-- `Value::as_str`. -/
def Json.asStr : Json → Option String
  | .str s => some s
  | _ => none

/-- `Value::as_i64`. -/
def Json.asI64 : Json → Option Int
  | .int n => if -2 ^ 63 ≤ n ∧ n < 2 ^ 63 then some n else none
  | _ => none

/-- `Value::as_bool`. -/
def Json.asBool : Json → Option Bool
  | .bool b => some b
  | _ => none

/-- `Value::as_array`. -/
def Json.asArray : Json → Option (List Json)
  | .arr elems => some elems
  | _ => none

/-- `Map::insert`, when the value is an object. -/
def Json.insert (j : Json) (key : String) (v : Json) : Json :=
  match j with
  | .obj fields => .obj ((key, v) :: fields.filter fun f => f.1 != key)
  | j => j

theorem Json.get_insert_ne {key key' : String} (h : key' ≠ key) (j v : Json) :
    (j.insert key v).get key' = j.get key' := by
  cases j with
  | obj fields =>
    have hfind : (fields.filter fun f => f.1 != key).find? (fun f => f.1 == key') =
        fields.find? fun f => f.1 == key' := by
      rw [List.find?_filter]
      refine congrArg (List.find? · fields) (funext fun f => ?_)
      by_cases hf : f.1 = key'
      · simp [hf, h]
      · simp [hf]
    simp only [Json.insert, Json.get, List.find?_cons, beq_eq_false_iff_ne.2 h.symm, hfind]
  | _ => rfl

/-- `as i32` of an `i64`. -/
def asI32 (n : Int) : Int := Int.bmod n (2 ^ 32)

/-- `std::process::Output`, what the callers look at. -/
structure Output where
  success : Bool
  stdout : Bytes

variable (fromSlice : Bytes → Option Json)

/-- `parse_state`. -/
def parseState (json : Bytes) : Option RuntimeState := do
  let v ← fromSlice json
  let status ← (← v.get "status").asStr
  let pid := (((v.get "pid").bind Json.asI64).filter (0 < ·)).map asI32
  return ⟨status, pid⟩

/-- `probe`, by the outcome of `crun state`. -/
def probe (out : Except String Output) : Except String (Option RuntimeState) :=
  match out with
  | .error e => .error e
  | .ok out => if !out.success then .ok none else .ok (parseState fromSlice out.stdout)

/-- What `reconcile` makes of a probe: `Ok(None) | Err(_)` is one arm. -/
def known : Except String (Option RuntimeState) → Option RuntimeState
  | .ok st => st
  | .error _ => none

variable {fromSlice}

theorem probe_eq_some {out : Except String Output} {st : RuntimeState} :
    known (probe fromSlice out) = some st ↔
      ∃ o, out = .ok o ∧ o.success = true ∧ parseState fromSlice o.stdout = some st := by
  cases out with
  | error e => simp [probe, known]
  | ok o => cases hs : o.success <;> simp [probe, known, hs]

end ContainerdRs.Runtime.Crun
