import ContainerdRs.Digests
import ContainerdRs.Images.Pull
import ContainerdRs.Lib.HashChain

/-!
# Chain IDs (`crates/images/src/identity.rs`)

`chain_ids` is the hash chain of the diffIDs: what is hashed is the chainID before and the diffID
in their string forms, with one space between them.  A string form has a fixed length, so the two
can be told apart again.

* `chainIds_eq_chain` — the chainIDs are a hash chain.
* `chainInput_inj` — what is hashed determines the chainID before and the diffID.
* `chain_ids_identify_stacks` — the recursion, prefixes, and one stack for each snapshot directory.
-/

set_option autoImplicit false

namespace ContainerdRs.Images

open HashChain

/-! ## The chain -/

/-- What is hashed for a chainID. -/
def chainInput (prev diff : Digest) : Bytes :=
  (prev.toString ++ " " ++ diff.toString).toUTF8.data.toList

/-- `identity::chain_id`. -/
def chainId (sha256 : Bytes → Digest) (diffIds : List Digest) : Option Digest :=
  (chainIds sha256 diffIds).getLast?

/-- `snapshots::snapshot_dirs`, by their components: `fs` and `work` of a snapshot. -/
def snapshotDirs (root : List String) (id : String) : List String × List String :=
  (root ++ ["snapshots", id, "fs"], root ++ ["snapshots", id, "work"])

variable {sha256 : Bytes → Digest}

theorem chainIdsFrom_eq_chainFrom (prev : Digest) (ds : List Digest) :
    chainIdsFrom sha256 prev ds = chainFrom sha256 chainInput prev ds := by
  induction ds generalizing prev with
  | nil => rfl
  | cons d ds ih =>
    have htail := ih (sha256 (chainInput prev d))
    exact congrArg (sha256 (chainInput prev d) :: ·) htail

/-- The chainIDs are the hash chain of the diffIDs. -/
theorem chainIds_eq_chain (ds : List Digest) :
    chainIds sha256 ds = chain sha256 chainInput ds := by
  cases ds with
  | nil => rfl
  | cons d ds => exact congrArg (d :: ·) (chainIdsFrom_eq_chainFrom d ds)

/-- Each chainID is the hash of the one before and the diffID. -/
theorem chainIds_getElem?_succ {ds : List Digest} {i : Nat} {d : Digest}
    (h : ds[i + 1]? = some d) : ∃ prev, (chainIds sha256 ds)[i]? = some prev ∧
      (chainIds sha256 ds)[i + 1]? = some (sha256 (chainInput prev d)) := by
  rw [chainIds_eq_chain]
  cases ds with
  | nil => cases h
  | cons d₀ ds => exact chainFrom_getElem? h

/-! ## What is hashed -/

theorem length_toString (d : Digest) : d.toString.toList.length = 71 := by
  rw [Digest.toList_toString, List.length_append, List.length_cons, d.length]
  rfl

theorem toString_inj {d e : Digest} (h : d.toString.toList = e.toString.toList) : d = e := by
  have hstring : d.toString = e.toString := String.toList_inj.1 h
  exact Digest.hex_injective (String.append_right_inj "sha256:" |>.1 hstring)

/-- The chainID and the diffID can be told apart in what is hashed. -/
theorem chainInput_inj (p d q e : Digest) (h : chainInput p d = chainInput q e) :
    p = q ∧ d = e := by
  have hbytes : (p.toString ++ " " ++ d.toString).toUTF8 =
      (q.toString ++ " " ++ e.toString).toUTF8 := ByteArray.ext (Array.toList_inj.1 h)
  have htext : p.toString ++ " " ++ d.toString = q.toString ++ " " ++ e.toString :=
    String.toByteArray_inj.1 hbytes
  have hlist : p.toString.toList ++ " ".toList ++ d.toString.toList =
      q.toString.toList ++ " ".toList ++ e.toString.toList := by
    have := congrArg String.toList htext
    simpa only [String.toList_append] using this
  have hlen : (p.toString.toList ++ " ".toList).length =
      (q.toString.toList ++ " ".toList).length := by
    rw [List.length_append, List.length_append, length_toString, length_toString]
  obtain ⟨hfirst, hsecond⟩ := List.append_inj hlist hlen
  exact ⟨toString_inj (List.append_cancel_right hfirst), toString_inj hsecond⟩

/-! ## Stacks and snapshot directories -/

theorem snapshotDirs_inj {root : List String} {d e : Digest}
    (h : snapshotDirs root d.hex = snapshotDirs root e.hex) : d = e := by
  have hfs := List.append_cancel_left (congrArg Prod.fst h)
  simp only [List.cons.injEq, and_true, true_and] at hfs
  exact Digest.hex_injective hfs

theorem chainId_injective {a b : List Digest} (ha : a ≠ []) (hb : b ≠ [])
    (h : Separated sha256 chainInput a b) (hlast : chainId sha256 a = chainId sha256 b) :
    a = b := by
  unfold chainId at hlast
  rw [chainIds_eq_chain, chainIds_eq_chain] at hlast
  exact chain_injective chainInput_inj ha hb h hlast

/-- The chainID of layer `i` is the chainID of the stack up to this layer. -/
theorem chainId_take {ds : List Digest} {i : Nat} {c : Digest}
    (h : (chainIds sha256 ds)[i]? = some c) : chainId sha256 (ds.take (i + 1)) = some c := by
  have hlt : i < (chainIds sha256 ds).length := (List.getElem?_eq_some_iff.1 h).1
  rw [chainId, chainIds_eq_chain, chain_take, ← chainIds_eq_chain, List.getLast?_take]
  simp [h]

/-- **Chain IDs identify layer stacks**: they follow the recursion of the image spec, one for each
    diffID; those of a prefix are a prefix; and two stacks with the same last chainID, or two
    layers with the same snapshot directory, have the same layers below. -/
theorem chain_ids_identify_stacks (sha256 : Bytes → Digest) :
    (∀ ds, (chainIds sha256 ds).length = ds.length ∧ (chainIds sha256 ds)[0]? = ds[0]? ∧
      ∀ (i : Nat) (d : Digest), ds[i + 1]? = some d →
        ∃ prev : Digest, (chainIds sha256 ds)[i]? = some prev ∧
          (chainIds sha256 ds)[i + 1]? = some (sha256
            (prev.toString ++ " " ++ d.toString).toUTF8.data.toList)) ∧
    (∀ ds n, chainIds sha256 (ds.take n) = (chainIds sha256 ds).take n) ∧
    ∀ a b, a ≠ [] → b ≠ [] → Separated sha256 chainInput a b →
      (chainId sha256 a = chainId sha256 b → a = b) ∧
      ∀ (root : List String) (i j : Nat) (c c' : Digest), (chainIds sha256 a)[i]? = some c →
        (chainIds sha256 b)[j]? = some c' →
        snapshotDirs root c.hex = snapshotDirs root c'.hex → a.take (i + 1) = b.take (j + 1) := by
  refine ⟨?_, ?_, ?_⟩
  · intro ds
    refine ⟨chainIds_length sha256 ds, ?_, fun i d h => chainIds_getElem?_succ h⟩
    cases ds <;> rfl
  · intro ds n
    rw [chainIds_eq_chain, chainIds_eq_chain, chain_take]
  · intro a b ha hb h
    refine ⟨chainId_injective ha hb h, ?_⟩
    intro root i j c c' hc hc' hdirs
    have hsame : chainId sha256 (a.take (i + 1)) = chainId sha256 (b.take (j + 1)) := by
      rw [chainId_take hc, chainId_take hc', snapshotDirs_inj hdirs]
    have hne : ∀ (ds : List Digest) (k : Nat), ds ≠ [] → ds.take (k + 1) ≠ [] := by
      intro ds k hds htake
      exact hds ((List.take_eq_nil_iff.1 htake).resolve_left (Nat.succ_ne_zero k))
    exact chainId_injective (hne a i ha) (hne b j hb) (h.take (i + 1) (j + 1)) hsame

/-- The sha256 of the one text that is hashed for two empty layers. -/
def emptyLayersSum : Bytes → Digest := fun _ =>
  ⟨"de9d9016b852e46e9f3973e20d3a6d17e120f7144931d50cd6e2a8ad53e81960", by decide, by decide⟩

/-- One empty layer and two of them are different stacks. -/
theorem empty_layers_differ :
    chainId emptyLayersSum [emptyDigest] ≠ chainId emptyLayersSum [emptyDigest, emptyDigest] := by
  have hseparated : Separated emptyLayersSum chainInput [emptyDigest]
      [emptyDigest, emptyDigest] := by
    refine ⟨?_, ?_⟩
    · intro m hm m' hm' _
      simp only [messages, messagesFrom, List.nil_append, List.mem_singleton] at hm hm'
      rw [hm, hm']
    · intro x hx m _
      have hempty : x = emptyDigest := by simpa using hx
      have hother : emptyDigest ≠ emptyLayersSum [] := by decide
      rw [hempty]
      exact hother
  intro h
  have hsame := ((chain_ids_identify_stacks emptyLayersSum).2.2 [emptyDigest]
    [emptyDigest, emptyDigest] (by decide) (by decide) hseparated).1 h
  exact absurd hsame (by decide)

end ContainerdRs.Images
