import Mathlib.Data.Set.Function
import Mathlib.Data.List.Perm.Subperm
import ContainerdRs.CoreTypes
import ContainerdRs.Lib.OrdMap
import ContainerdRs.Lib.Separators
import ContainerdRs.Lib.Transition

/-!
# Streaming sessions and their tokens (`crates/cri/src/streaming.rs`, `Sessions`)

`Exec`, `Attach` and `PortForward` register a session and answer with a URL that ends in its token;
the HTTP side takes the session by that token.  The token is the hash of a counter and the clock.
The three kinds share the counter and have a map each; every call touches the shared state in atomic
steps (`fetch_add`, one access to a map under its mutex), which interleave in any order.

* `Numbered` — the calls so far have different numbers, all below the counter.
* `Kept` — a session is in its own map until it is taken, and taken once.
* `tokens_one_time` — over every run.
-/

set_option autoImplicit false

namespace ContainerdRs.Cri.Streaming

open Transition

/-! ## Sessions -/

/-- A pending exec session. -/
structure ExecSession where
  containerId : String
  cmd : List String
  tty : Bool
  stdin : Bool
  stdout : Bool
  stderr : Bool
  deriving DecidableEq, Repr

/-- A pending port-forward session. -/
structure PortForwardSession where
  podSandboxId : String
  host : String
  deriving DecidableEq, Repr

/-- A pending attach session. -/
structure AttachSession where
  containerId : String
  stdin : Bool
  stdout : Bool
  stderr : Bool
  tty : Bool
  stdinOnce : Bool
  deriving DecidableEq, Repr

/-- The three endpoints. -/
inductive Endpoint where
  | exec
  | attach
  | portForward
  deriving DecidableEq, Repr

/-- A session of any of them. -/
inductive Session where
  | exec (session : ExecSession)
  | attach (session : AttachSession)
  | portForward (session : PortForwardSession)
  deriving DecidableEq, Repr

def Session.endpoint : Session → Endpoint
  | .exec _ => .exec
  | .attach _ => .attach
  | .portForward _ => .portForward

/-- `Sessions`, the fields behind tokens. -/
structure Sessions where
  exec : OrdMap String ExecSession
  portforward : OrdMap String PortForwardSession
  attach : OrdMap String AttachSession
  counter : UInt64

/-- `Sessions::new`. -/
def Sessions.new : Sessions := ⟨.empty, .empty, .empty, 0⟩

/-- `token`, the text that is hashed. -/
def tokenText (n : UInt64) (nanos : Nat) : String := toString n.toNat ++ "/" ++ toString nanos

/-- `token`, from the number that `fetch_add` returned and the clock. -/
def token (sha256 : Bytes → Digest) (n : UInt64) (nanos : Nat) : String :=
  (sha256 (tokenText n nanos).toUTF8.data.toList).hex

/-- `register_exec`, behind the token. -/
def Sessions.registerExec (s : Sessions) (token : String) (session : ExecSession) : Sessions :=
  { s with exec := s.exec.insert token session }

/-- `register_attach`, behind the token. -/
def Sessions.registerAttach (s : Sessions) (token : String) (session : AttachSession) : Sessions :=
  { s with attach := s.attach.insert token session }

/-- `register_portforward`, behind the token. -/
def Sessions.registerPortforward (s : Sessions) (token : String) (session : PortForwardSession) :
    Sessions :=
  { s with portforward := s.portforward.insert token session }

/-- The register function of a session. -/
def Sessions.register (s : Sessions) (token : String) : Session → Sessions
  | .exec session => s.registerExec token session
  | .attach session => s.registerAttach token session
  | .portForward session => s.registerPortforward token session

/-- `take_exec`. -/
def Sessions.takeExec (s : Sessions) (token : String) : Option ExecSession × Sessions :=
  (s.exec.get? token, { s with exec := s.exec.erase token })

/-- `take_attach`. -/
def Sessions.takeAttach (s : Sessions) (token : String) : Option AttachSession × Sessions :=
  (s.attach.get? token, { s with attach := s.attach.erase token })

/-- `take_portforward`. -/
def Sessions.takePortforward (s : Sessions) (token : String) :
    Option PortForwardSession × Sessions :=
  (s.portforward.get? token, { s with portforward := s.portforward.erase token })

/-- The take function of an endpoint. -/
def Sessions.take (s : Sessions) (token : String) : Endpoint → Option Session × Sessions
  | .exec => ((s.takeExec token).1.map .exec, (s.takeExec token).2)
  | .attach => ((s.takeAttach token).1.map .attach, (s.takeAttach token).2)
  | .portForward => ((s.takePortforward token).1.map .portForward, (s.takePortforward token).2)

/-- The session behind a token, in the map of an endpoint. -/
def Sessions.find (s : Sessions) (endpoint : Endpoint) (token : String) : Option Session :=
  (s.take token endpoint).1

theorem find_register {s : Sessions} {t token : String} {session : Session} {e : Endpoint} :
    (s.register t session).find e token =
      if token = t ∧ e = session.endpoint then some session else s.find e token := by
  cases session <;> cases e <;>
    simp only [Sessions.find, Sessions.take, Sessions.register, Sessions.registerExec,
      Sessions.registerAttach, Sessions.registerPortforward, Sessions.takeExec, Sessions.takeAttach,
      Sessions.takePortforward, Session.endpoint, OrdMap.get?_insert,
      and_true, and_false, reduceCtorEq, if_false] <;>
    split <;> rfl

theorem find_take {s : Sessions} {t token : String} {e e' : Endpoint} :
    (s.take t e).2.find e' token = if token = t ∧ e' = e then none else s.find e' token := by
  cases e <;> cases e' <;>
    simp only [Sessions.find, Sessions.take, Sessions.takeExec, Sessions.takeAttach,
      Sessions.takePortforward, OrdMap.get?_erase, and_true, and_false, reduceCtorEq, if_false] <;>
    split <;> rfl

/-! ## Calls from any number of requests -/

/-- A `register` call behind its `fetch_add`: the number it got, the clock and its session. -/
structure Call where
  n : UInt64
  nanos : Nat
  session : Session

def Call.token (sha256 : Bytes → Digest) (call : Call) : String :=
  Streaming.token sha256 call.n call.nanos

/-- The registry, the `register` calls that have not come to their map yet, those that have
    returned their token, and what the take functions have handed out. -/
structure St where
  sessions : Sessions
  pending : List Call
  returned : List Call
  handed : List (Endpoint × String × Session)

def St.new : St := ⟨.new, [], [], []⟩

/-- All `register` calls so far. -/
def St.calls (s : St) : List Call := s.returned ++ s.pending

/-- A step of a call. -/
inductive Label where
  /-- `token`: `fetch_add` and the clock. -/
  | register (session : Session) (nanos : Nat)
  /-- The call inserts its session and returns. -/
  | insert (i : Nat)
  | take (endpoint : Endpoint) (token : String)

def Label.isRegister : Label → Bool
  | .register _ _ => true
  | _ => false

def step (sha256 : Bytes → Digest) (s : St) : Label → Option St
  | .register session nanos =>
    some { s with
      sessions := { s.sessions with counter := s.sessions.counter + 1 }
      pending := s.pending ++ [⟨s.sessions.counter, nanos, session⟩] }
  | .insert i =>
    match s.pending[i]? with
    | none => none
    | some call =>
      some { s with
        sessions := s.sessions.register (call.token sha256) call.session
        pending := s.pending.eraseIdx i
        returned := s.returned ++ [call] }
  | .take endpoint token =>
    let r := s.sessions.take token endpoint
    some { s with
      sessions := r.2
      handed := s.handed ++ (r.1.map fun session => (endpoint, token, session)).toList }

/-! ## Numbers -/

theorem slash_not_mem_toString (n : Nat) : '/' ∉ (toString n).toList := by
  intro h
  rw [Nat.toString_eq_ofList_toDigits, String.toList_ofList] at h
  have hdigit := Nat.isDigit_of_mem_toDigits (by decide) (by decide) h
  revert hdigit
  decide

theorem toString_nat_inj {n m : Nat} (h : (toString n).toList = (toString m).toList) : n = m := by
  rw [Nat.toString_eq_ofList_toDigits, Nat.toString_eq_ofList_toDigits, String.toList_ofList,
    String.toList_ofList] at h
  rw [← Nat.ofDigitChars_ten_toDigits (n := n), h, Nat.ofDigitChars_ten_toDigits]

/-- The number can be read off the text. -/
theorem tokenText_inj {n m : UInt64} {a b : Nat} (h : tokenText n a = tokenText m b) : n = m := by
  have hcut : ∀ (k : UInt64) (x : Nat), Separators.cut '/' (tokenText k x).toList =
      some ((toString k.toNat).toList, (toString x).toList) := by
    intro k x
    have happ : (tokenText k x).toList =
        (toString k.toNat).toList ++ '/' :: (toString x).toList := by
      simp [tokenText]
    rw [happ, Separators.cut_append _ _ _ (slash_not_mem_toString _)]
  have hsame := hcut n a
  rw [h, hcut m b] at hsame
  simp only [Option.some.injEq, Prod.mk.injEq] at hsame
  exact UInt64.toNat_inj.1 (toString_nat_inj hsame.1.symm)

/-- The calls so far have different numbers, all below the counter, which counts them. -/
structure Numbered (s : St) : Prop where
  distinct : (s.calls.map (·.n)).Nodup
  below : ∀ call ∈ s.calls, call.n.toNat < s.calls.length
  counter : s.sessions.counter.toNat = s.calls.length

/-- The calls of a step: one more, or the same. -/
theorem calls_step {sha256 : Bytes → Digest} {s s' : St} {l : Label}
    (h : step sha256 s l = some s') :
    (∃ session nanos, l = .register session nanos ∧
      s'.calls = s.calls ++ [⟨s.sessions.counter, nanos, session⟩] ∧
      s'.sessions.counter = s.sessions.counter + 1) ∨
    (l.isRegister = false ∧ s'.calls.Perm s.calls ∧
      s'.sessions.counter = s.sessions.counter) := by
  cases l with
  | register session nanos =>
    cases h
    exact .inl ⟨session, nanos, rfl, by simp [St.calls], rfl⟩
  | insert i =>
    simp only [step] at h
    cases hi : s.pending[i]? with
    | none => simp only [hi] at h; cases h
    | some call =>
      simp only [hi] at h
      cases h
      refine .inr ⟨rfl, ?_, ?_⟩
      · obtain ⟨hlt, hget⟩ := List.getElem?_eq_some_iff.1 hi
        have hperm : (call :: s.pending.eraseIdx i).Perm s.pending := by
          rw [← hget]
          exact List.getElem_cons_eraseIdx_perm hlt
        show ((s.returned ++ [call]) ++ s.pending.eraseIdx i).Perm (s.returned ++ s.pending)
        rw [List.append_assoc]
        exact hperm.append_left s.returned
      · cases call.session <;> rfl
  | take endpoint token =>
    cases h
    refine .inr ⟨rfl, .refl _, ?_⟩
    cases endpoint <;> rfl

theorem Numbered.step {sha256 : Bytes → Digest} {s s' : St} {l : Label} (hn : Numbered s)
    (h : step sha256 s l = some s') (hcount : s'.calls.length < 2 ^ 64) : Numbered s' := by
  rcases calls_step h with ⟨session, nanos, -, hcalls, hcounter⟩ | ⟨-, hperm, hcounter⟩
  · rw [hcalls, List.length_append, List.length_singleton] at hcount
    refine ⟨?_, ?_, ?_⟩
    · rw [hcalls, List.map_append, List.nodup_append]
      refine ⟨hn.distinct, by simp, ?_⟩
      intro a ha b hb hab
      obtain ⟨call, hcall, rfl⟩ := List.mem_map.1 ha
      simp only [List.map_cons, List.map_nil, List.mem_singleton] at hb
      have hlt := hn.below call hcall
      rw [hab, hb, hn.counter] at hlt
      exact absurd hlt (Nat.lt_irrefl _)
    · rw [hcalls]
      intro call hcall
      rw [List.length_append, List.length_singleton]
      rcases List.mem_append.1 hcall with hcall | hcall
      · have := hn.below call hcall
        omega
      · rw [List.mem_singleton.1 hcall]
        show s.sessions.counter.toNat < _
        rw [hn.counter]
        exact Nat.lt_succ_self _
    · rw [hcounter, hcalls, List.length_append, List.length_singleton, UInt64.toNat_add, hn.counter]
      exact Nat.mod_eq_of_lt hcount
  · refine ⟨?_, ?_, ?_⟩
    · exact (hperm.map _).nodup_iff.2 hn.distinct
    · intro call hcall
      rw [hperm.length_eq]
      exact hn.below call (hperm.mem_iff.1 hcall)
    · rw [hcounter, hperm.length_eq, hn.counter]

/-! ## What the maps hold -/

/-- No two calls have the same token. -/
def Distinct (sha256 : Bytes → Digest) (s : St) : Prop :=
  (s.calls.map (·.token sha256)).Nodup

/-- A call has returned this token for this session. -/
def Issued (sha256 : Bytes → Digest) (s : St) (e : Endpoint) (token : String) (session : Session) :
    Prop :=
  ∃ call ∈ s.returned, call.token sha256 = token ∧ call.session = session ∧ session.endpoint = e

/-- The session of this token has been handed out. -/
def Handed (s : St) (token : String) : Prop := token ∈ s.handed.map fun h => h.2.1

structure Kept (sha256 : Bytes → Digest) (s : St) : Prop where
  once : (s.handed.map fun h => h.2.1).Nodup
  own : ∀ e token session, (e, token, session) ∈ s.handed → Issued sha256 s e token session
  available : ∀ call ∈ s.returned, ¬ Handed s (call.token sha256) →
    s.sessions.find call.session.endpoint (call.token sha256) = some call.session
  found : ∀ e token session, s.sessions.find e token = some session →
    Issued sha256 s e token session ∧ ¬ Handed s token

variable {sha256 : Bytes → Digest}

/-- Two calls with one token are one call. -/
theorem Distinct.eq {s : St} (h : Distinct sha256 s) {a b : Call} (ha : a ∈ s.calls)
    (hb : b ∈ s.calls) (htoken : a.token sha256 = b.token sha256) : a = b :=
  List.inj_on_of_nodup_map h ha hb htoken

theorem returned_of_handed {s : St} (hk : Kept sha256 s) {token : String} (h : Handed s token) :
    ∃ call ∈ s.returned, call.token sha256 = token := by
  obtain ⟨⟨e, t, session⟩, hmem, rfl⟩ := List.mem_map.1 h
  obtain ⟨call, hcall, htoken, -⟩ := hk.own e t session hmem
  exact ⟨call, hcall, htoken⟩

/-- A token is handed out at most once, and by the endpoint of its session. -/
theorem Kept.take {s s' : St} (hk : Kept sha256 s) (hd : Distinct sha256 s) {e : Endpoint}
    {t : String} (h : step sha256 s (.take e t) = some s') : Kept sha256 s' := by
  cases h
  cases hr : (s.sessions.take t e).1 with
  | none =>
    -- nothing is there: the map stays as it is
    have hsame : ∀ e' token, (s.sessions.take t e).2.find e' token = s.sessions.find e' token := by
      intro e' token
      rw [find_take]
      split
      · rename_i heq
        rw [heq.1, heq.2]
        exact hr.symm
      · rfl
    simp only [Option.map_none, Option.toList_none, List.append_nil]
    refine ⟨hk.once, hk.own, ?_, ?_⟩
    · intro call hcall hnot
      rw [hsame]
      exact hk.available call hcall hnot
    · intro e' token session hfind
      rw [hsame] at hfind
      exact hk.found e' token session hfind
  | some session =>
    obtain ⟨hissued, hnew⟩ := hk.found e t session hr
    simp only [Option.map_some, Option.toList_some]
    have hhanded : ∀ token, Handed ⟨(s.sessions.take t e).2, s.pending, s.returned,
        s.handed ++ [(e, t, session)]⟩ token ↔ Handed s token ∨ token = t := by
      intro token
      simp [Handed]
    refine ⟨?_, ?_, ?_, ?_⟩
    · rw [List.map_append, List.nodup_append]
      refine ⟨hk.once, by simp, ?_⟩
      intro a ha b hb hab
      simp only [List.map_cons, List.map_nil, List.mem_singleton] at hb
      rw [hab, hb] at ha
      exact hnew ha
    · intro e' token session' hmem
      rcases List.mem_append.1 hmem with hmem | hmem
      · exact hk.own e' token session' hmem
      · cases List.mem_singleton.1 hmem
        exact hissued
    · intro call hcall hnot
      rw [hhanded, not_or] at hnot
      rw [find_take, if_neg (fun heq => hnot.2 heq.1)]
      exact hk.available call hcall hnot.1
    · intro e' token session' hfind
      rw [find_take] at hfind
      split at hfind
      · cases hfind
      · rename_i hne
        obtain ⟨hissued', hnot⟩ := hk.found e' token session' hfind
        refine ⟨hissued', ?_⟩
        rw [hhanded, not_or]
        refine ⟨hnot, ?_⟩
        rintro rfl
        -- the same token in two maps would be the token of two calls
        obtain ⟨a, ha, hta, rfl, rfl⟩ := hissued
        obtain ⟨b, hb, htb, rfl, rfl⟩ := hissued'
        have hab := hd.eq (List.mem_append_left _ ha) (List.mem_append_left _ hb)
          (hta.trans htb.symm)
        rw [hab] at hne
        exact hne ⟨rfl, rfl⟩

/-- A session comes into its own map, under a token that no other call has. -/
theorem Kept.insert {s s' : St} (hk : Kept sha256 s) (hd : Distinct sha256 s) {i : Nat}
    (h : step sha256 s (.insert i) = some s') : Kept sha256 s' := by
  simp only [step] at h
  cases hi : s.pending[i]? with
  | none => simp only [hi] at h; cases h
  | some call =>
    simp only [hi] at h
    cases h
    have hpending : call ∈ s.pending := List.mem_of_getElem? hi
    have hother : ∀ c ∈ s.returned, c.token sha256 ≠ call.token sha256 := by
      intro c hc htoken
      have hnodup : (s.returned.map (·.token sha256) ++ s.pending.map (·.token sha256)).Nodup := by
        rw [← List.map_append]
        exact hd
      exact (List.nodup_append.1 hnodup).2.2 _ (List.mem_map_of_mem hc) _
        (List.mem_map_of_mem hpending) htoken
    have hnot : ¬ Handed s (call.token sha256) := by
      intro hh
      obtain ⟨c, hc, htoken⟩ := returned_of_handed hk hh
      exact hother c hc htoken
    refine ⟨hk.once, ?_, ?_, ?_⟩
    · intro e token session hmem
      obtain ⟨c, hc, hrest⟩ := hk.own e token session hmem
      exact ⟨c, List.mem_append_left _ hc, hrest⟩
    · intro c hc hn
      rw [find_register]
      rcases List.mem_append.1 hc with hc | hc
      · rw [if_neg (fun heq => hother c hc heq.1)]
        exact hk.available c hc hn
      · rw [List.mem_singleton.1 hc, if_pos ⟨rfl, rfl⟩]
    · intro e token session hfind
      rw [find_register] at hfind
      split at hfind
      · rename_i heq
        cases hfind
        rw [heq.1, heq.2]
        exact ⟨⟨call, List.mem_append_right _ List.mem_cons_self, rfl, rfl, rfl⟩, hnot⟩
      · obtain ⟨⟨c, hc, hrest⟩, hn⟩ := hk.found e token session hfind
        exact ⟨⟨c, List.mem_append_left _ hc, hrest⟩, hn⟩

theorem Kept.step {s s' : St} (hk : Kept sha256 s) (hd : Distinct sha256 s) {l : Label}
    (h : step sha256 s l = some s') : Kept sha256 s' := by
  cases l with
  | register session nanos =>
    cases h
    refine ⟨hk.once, hk.own, ?_, ?_⟩
    · intro call hcall hn
      have hfind := hk.available call hcall hn
      revert hfind
      cases call.session <;> exact id
    · intro e token session' hfind
      refine hk.found e token session' ?_
      rw [← hfind]
      cases e <;> rfl
  | insert i => exact hk.insert hd h
  | take e t => exact hk.take hd h

/-! ## Runs -/

/-- The calls of a run only grow, by one for each registration. -/
theorem calls_run : ∀ {ls : List Label} {s s' : St}, run (step sha256) s ls = some s' →
    (∀ call ∈ s.calls, call ∈ s'.calls) ∧
      s'.calls.length = s.calls.length + ls.countP Label.isRegister
  | [], s, s', h => by
    cases h
    exact ⟨fun _ => id, by simp⟩
  | l :: ls, s, s', h => by
    obtain ⟨t, ht, hr⟩ := run_cons_some h
    obtain ⟨hsub, hlen⟩ := calls_run hr
    rcases calls_step ht with ⟨session, nanos, rfl, hcalls, -⟩ | ⟨hl, hperm, -⟩
    · refine ⟨fun call hcall => hsub call ?_, ?_⟩
      · rw [hcalls]
        exact List.mem_append_left _ hcall
      · rw [hlen, hcalls, List.length_append, List.length_singleton, List.countP_cons]
        simp only [Label.isRegister, if_true]
        omega
    · refine ⟨fun call hcall => hsub call (hperm.mem_iff.2 hcall), ?_⟩
      rw [hlen, hperm.length_eq, List.countP_cons, hl]
      rfl

theorem numbered_run : ∀ {ls : List Label} {s s' : St}, Numbered s →
    s.calls.length + ls.countP Label.isRegister < 2 ^ 64 → run (step sha256) s ls = some s' →
    Numbered s'
  | [], s, s', hn, _, h => by
    cases h
    exact hn
  | l :: ls, s, s', hn, hcount, h => by
    obtain ⟨t, ht, hr⟩ := run_cons_some h
    have hone : run (step sha256) s [l] = some t := by
      simp [run, ht]
    have hlen := (calls_run hone).2
    have hsplit : (l :: ls).countP Label.isRegister =
        [l].countP Label.isRegister + ls.countP Label.isRegister := by
      rw [← List.countP_append]
      rfl
    refine numbered_run (hn.step ht ?_) ?_ hr
    · omega
    · omega

/-- Tokens that are distinct at the end of a run were so before. -/
theorem distinct_of_run : ∀ {ls : List Label} {s s' : St}, run (step sha256) s ls = some s' →
    Distinct sha256 s' → Distinct sha256 s
  | [], s, s', h, hd => by
    cases h
    exact hd
  | l :: ls, s, s', h, hd => by
    obtain ⟨t, ht, hr⟩ := run_cons_some h
    have hdt := distinct_of_run hr hd
    rcases calls_step ht with ⟨session, nanos, -, hcalls, -⟩ | ⟨-, hperm, -⟩
    · rw [Distinct, hcalls, List.map_append] at hdt
      exact (List.nodup_append.1 hdt).1
    · exact (hperm.map _).nodup_iff.1 hdt

theorem kept_run : ∀ {ls : List Label} {s s' : St}, Kept sha256 s → Distinct sha256 s' →
    run (step sha256) s ls = some s' → Kept sha256 s'
  | [], s, s', hk, _, h => by
    cases h
    exact hk
  | l :: ls, s, s', hk, hd, h => by
    obtain ⟨t, ht, hr⟩ := run_cons_some h
    exact kept_run (hk.step (distinct_of_run h hd) ht) hd hr

/-- The texts that the calls have hashed. -/
def hashed (s : St) : Set Bytes :=
  {b | ∃ call ∈ s.calls, b = (tokenText call.n call.nanos).toUTF8.data.toList}

/-- Where no two texts have one hash, different numbers give different tokens. -/
theorem Numbered.distinctTokens {s : St} (hn : Numbered s) (hinj : Set.InjOn sha256 (hashed s)) :
    Distinct sha256 s := by
  have hnodup : s.calls.Nodup := List.Nodup.of_map _ hn.distinct
  refine List.Nodup.map_on ?_ hnodup
  intro a ha b hb htoken
  have hbytes : (tokenText a.n a.nanos).toUTF8.data.toList =
      (tokenText b.n b.nanos).toUTF8.data.toList :=
    hinj ⟨a, ha, rfl⟩ ⟨b, hb, rfl⟩ (Digest.hex_injective htoken)
  have htext : tokenText a.n a.nanos = tokenText b.n b.nanos := by
    have hdata : (tokenText a.n a.nanos).toUTF8 = (tokenText b.n b.nanos).toUTF8 :=
      ByteArray.ext (Array.toList_inj.1 hbytes)
    exact String.toByteArray_inj.1 hdata
  exact List.inj_on_of_nodup_map hn.distinct ha hb (tokenText_inj htext)

/-- **One-time tokens.** -/
structure OneTime (sha256 : Bytes → Digest) (s : St) : Prop where
  /-- The tokens returned are pairwise distinct. -/
  distinct : (s.returned.map (·.token sha256)).Nodup
  /-- No token gets a session twice. -/
  once : (s.handed.map fun h => h.2.1).Nodup
  /-- A session goes to its own token only, by the take function of its own kind. -/
  own : ∀ e token session, (e, token, session) ∈ s.handed → Issued sha256 s e token session
  /-- A session that was not taken is still there. -/
  available : ∀ call ∈ s.returned, ¬ Handed s (call.token sha256) →
    (s.sessions.take (call.token sha256) call.session.endpoint).1 = some call.session

/-- **Streaming tokens** are one-time and cannot be reused, over every interleaving of the register
    and take functions. -/
theorem tokens_one_time {ls : List Label} {s : St} (hrun : run (step sha256) .new ls = some s)
    (hcount : ls.countP Label.isRegister < 2 ^ 64) (hinj : Set.InjOn sha256 (hashed s)) :
    OneTime sha256 s := by
  have hnumbered : Numbered s := by
    refine numbered_run (s := .new) ⟨by simp [St.calls, St.new], ?_, rfl⟩ ?_ hrun
    · intro call hcall
      cases hcall
    · simpa [St.calls, St.new] using hcount
  have hdistinct := hnumbered.distinctTokens hinj
  have hnew : Kept sha256 .new := by
    refine ⟨by simp [St.new], ?_, ?_, ?_⟩
    · intro e token session hmem
      cases hmem
    · intro call hcall
      cases hcall
    · intro e token session hfind
      cases e <;> cases hfind
  have hkept := kept_run hnew hdistinct hrun
  refine ⟨?_, hkept.once, hkept.own, hkept.available⟩
  rw [Distinct, St.calls, List.map_append] at hdistinct
  exact (List.nodup_append.1 hdistinct).1

/-- The sha256 of `0/5` and of `1/7`. -/
def firstDigest : Digest :=
  ⟨"c2f817b7c4677f4f428d0a88fe676634356ad263ff0e0b98a9ca4b61dc82bcbc", by decide, by decide⟩

def secondDigest : Digest :=
  ⟨"2da190e578ddcfcde27e772094a620aacca6b6b5f26f3ce58a42640b4363b509", by decide, by decide⟩

/-- sha256, on these two texts. -/
def sampleSha256 (b : Bytes) : Digest := if b = [48, 47, 53] then firstDigest else secondDigest

def sampleExec : ExecSession := ⟨"c1", ["sh"], false, true, true, true⟩

def sampleForward : PortForwardSession := ⟨"s1", "10.0.0.2"⟩

/-- Two registrations that overlap; the exec token is used twice, once at the wrong endpoint. -/
def sampleCalls : List Label :=
  [.register (.exec sampleExec) 5, .register (.portForward sampleForward) 7, .insert 1, .insert 0,
    .take .attach firstDigest.hex, .take .exec firstDigest.hex, .take .exec firstDigest.hex]

/-- The session is handed out once, to its own endpoint. -/
theorem sampleCalls_one_time : ∃ s, run (step sampleSha256) .new sampleCalls = some s ∧
    sampleCalls.countP Label.isRegister < 2 ^ 64 ∧ Set.InjOn sampleSha256 (hashed s) ∧
    s.handed = [(.exec, firstDigest.hex, .exec sampleExec)] ∧ OneTime sampleSha256 s := by
  have hall : (run (step sampleSha256) .new sampleCalls).map
      (fun s =>
        (s.calls.map fun call => (tokenText call.n call.nanos).toUTF8.data.toList, s.handed)) =
        some ([[49, 47, 55], [48, 47, 53]], [(.exec, firstDigest.hex, .exec sampleExec)]) := by
    decide
  obtain ⟨s, hrun, hs⟩ := Option.map_eq_some_iff.1 hall
  simp only [Prod.mk.injEq] at hs
  have hcount : sampleCalls.countP Label.isRegister < 2 ^ 64 := by decide
  have htexts : ∀ b ∈ hashed s, b = [49, 47, 55] ∨ b = [48, 47, 53] := by
    rintro b ⟨call, hcall, rfl⟩
    have hmem := List.mem_map_of_mem (f := fun call : Call =>
      (tokenText call.n call.nanos).toUTF8.data.toList) hcall
    rw [hs.1] at hmem
    simpa using hmem
  have hinj : Set.InjOn sampleSha256 (hashed s) := by
    intro a ha b hb hab
    rcases htexts a ha with rfl | rfl <;> rcases htexts b hb with rfl | rfl
    · rfl
    · exact absurd hab (by decide)
    · exact absurd hab (by decide)
    · rfl
  exact ⟨s, hrun, hcount, hinj, hs.2, tokens_one_time hrun hcount hinj⟩

end ContainerdRs.Cri.Streaming
