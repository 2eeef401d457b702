/-
# Imports through the bridge

The bridge imports a record of a source registry once for each serial: an accepted
`bridge_in` marks `(registry, serial)`, and needs it unmarked.  The leaf that the proof is
about is a separate argument, tied to neither.

* `mint_once_iff` : a leaf is imported at most once in a run exactly if all its accepted
  imports name one serial;
* `proof_sound_iff` : the value that an accepted call presents is a leaf of the published
  tree exactly if it is not itself a value of the pair hash;
* `verifyProof_positions` : the siblings of every leaf position verify its value, and in a
  perfect tree no other proof of full length verifies anything.
-/
import CarbonVeritas.World

namespace CarbonVeritas

open Transition

/-- A record as a call of `bridge_in` presents it. -/
structure Import where
  registry : SorobanString
  serial : SorobanString
  leaf : Bytes32
  deriving DecidableEq, Repr

/-- What the bridge marks. -/
def Import.key (i : Import) : SorobanString × SorobanString := (i.registry, i.serial)

/-- The record that a call of `bridge_in` presents. -/
def Call.presents : Call → Option Import
  | .bridge (.bridgeIn _ sourceRegistry serial leaf _ _) => some ⟨sourceRegistry, serial, leaf⟩
  | _ => none

namespace World

variable {T : Type} {ch : Chain T} {w w' : World T} {tx : Tx ch}

/-! ## One step -/

/-- A transaction imports no record and leaves the marks, or it sets the mark of its record,
which was not set. -/
theorem exec_bridged (hexec : exec ch w tx = .ok w') :
    (tx.call.presents = none ∧ w'.bridge.bridged = w.bridge.bridged) ∨
      ∃ i, tx.call.presents = some i ∧ w.bridge.bridged i.key = false ∧
        w'.bridge.bridged = Function.update w.bridge.bridged i.key true := by
  have hstep := exec_step hexec
  generalize tx.call = call at hstep
  cases hstep with
  | registry _ _ => exact Or.inl ⟨rfl, rfl⟩
  | marketplace _ => exact Or.inl ⟨rfl, rfl⟩
  | tracker _ => exact Or.inl ⟨rfl, rfl⟩
  | bridge hchange =>
      cases hchange with
      | keep hb _ hread =>
          subst hb
          rcases hread with ⟨_, _, _, rfl⟩ | ⟨_, rfl⟩
          · exact Or.inl ⟨rfl, rfl⟩
          · exact Or.inl ⟨rfl, rfl⟩
      | init _ hb _ =>
          subst hb
          exact Or.inl ⟨rfl, rfl⟩
      | updateRoot _ _ hb _ =>
          subst hb
          exact Or.inl ⟨rfl, rfl⟩
      | bridgeOut _ hb _ =>
          subst hb
          exact Or.inl ⟨rfl, rfl⟩
      | @bridgeIn _ registry serial leaf _ _ _ _ _ hchecks hb _ =>
          subst hb
          exact Or.inr ⟨⟨registry, serial, leaf⟩, rfl, hchecks.fresh, rfl⟩

/-! ## The imports of a run -/

/-- The record that a transaction imports. -/
def imported (ch : Chain T) (w : World T) (tx : Tx ch) : Option Import :=
  match exec ch w tx with
  | .ok _ => tx.call.presents
  | .error _ => none

theorem imported_of_ok (h : exec ch w tx = .ok w') : imported ch w tx = tx.call.presents := by
  simp only [imported, h]

theorem imported_of_not_succeeds (h : ¬ Succeeds ch w tx) : imported ch w tx = none := by
  unfold imported
  cases hexec : exec ch w tx with
  | error _ => rfl
  | ok w' => exact absurd ⟨w', hexec⟩ h

/-- The records that the steps of a history import, in order. -/
def imports (ch : Chain T) (hist : List (World T × Tx ch)) : List Import :=
  hist.filterMap fun p => imported ch p.1 p.2

theorem imports_concat (hist : List (World T × Tx ch)) (w : World T) (tx : Tx ch) :
    imports ch (hist ++ [(w, tx)]) = imports ch hist ++ (imported ch w tx).toList :=
  filterMap_concat _ _ _

/-- The records imported so far are marked, and each mark was set once. -/
structure MarksImports (ch : Chain T) (hist : List (World T × Tx ch)) (w : World T) : Prop where
  nodup : ((imports ch hist).map Import.key).Nodup
  marked : ∀ i ∈ imports ch hist, w.bridge.bridged i.key = true

/-- A step without an import. -/
theorem MarksImports.keep {hist : List (World T × Tx ch)} (h : MarksImports ch hist w)
    (hnone : imported ch w tx = none) (hsame : w'.bridge.bridged = w.bridge.bridged) :
    MarksImports ch (hist ++ [(w, tx)]) w' := by
  have hlog : imports ch (hist ++ [(w, tx)]) = imports ch hist := by
    rw [imports_concat, hnone, Option.toList_none, List.append_nil]
  constructor
  · rw [hlog]
    exact h.nodup
  · rw [hlog, hsame]
    exact h.marked

/-- A step that imports a record whose mark was not set. -/
theorem MarksImports.mark {hist : List (World T × Tx ch)} (h : MarksImports ch hist w)
    {i : Import} (hsome : imported ch w tx = some i) (hfresh : w.bridge.bridged i.key = false)
    (hset : w'.bridge.bridged = Function.update w.bridge.bridged i.key true) :
    MarksImports ch (hist ++ [(w, tx)]) w' := by
  have hlog : imports ch (hist ++ [(w, tx)]) = imports ch hist ++ [i] := by
    rw [imports_concat, hsome, Option.toList_some]
  -- the mark of an earlier import is set
  have hnew : i.key ∉ (imports ch hist).map Import.key := by
    intro hmem
    obtain ⟨j, hj, hkey⟩ := List.mem_map.mp hmem
    have hmarked := h.marked j hj
    rw [hkey, hfresh] at hmarked
    cases hmarked
  constructor
  · rw [hlog, List.map_append, List.map_singleton]
    refine List.nodup_append.mpr ⟨h.nodup, List.pairwise_singleton _ _, ?_⟩
    intro key hold key' hkey' heq
    rw [heq, List.mem_singleton.mp hkey'] at hold
    exact hnew hold
  · intro j hj
    rw [hset]
    by_cases hkey : j.key = i.key
    · rw [hkey, Function.update_self]
    · rw [Function.update_of_ne hkey]
      rw [hlog] at hj
      rcases List.mem_append.mp hj with hj | hj
      · exact h.marked j hj
      · rw [List.mem_singleton.mp hj] at hkey
        exact absurd rfl hkey

theorem MarksImports.step {hist : List (World T × Tx ch)} (h : MarksImports ch hist w) :
    MarksImports ch (hist ++ [(w, tx)]) (apply ch w tx) := by
  by_cases hsucc : Succeeds ch w tx
  · have himported := imported_of_ok hsucc.exec_eq
    rcases exec_bridged hsucc.exec_eq with ⟨hcall, hsame⟩ | ⟨i, hcall, hfresh, hset⟩
    · exact h.keep (himported.trans hcall) hsame
    · exact h.mark (himported.trans hcall) hfresh hset
  · rw [apply_of_not_succeeds hsucc]
    exact h.keep (imported_of_not_succeeds hsucc) rfl

/-- No serial of a registry is imported twice in a run. -/
theorem nodup_keys (tokens : T) (ts : List (Tx ch)) :
    ((imports ch (steps (apply ch) (genesis tokens) ts)).map Import.key).Nodup := by
  have hinv : MarksImports ch (steps (apply ch) (genesis tokens) ts)
      (run (apply ch) (genesis tokens) ts) := by
    refine history_invariant (C := fun _ _ => True) (I := MarksImports ch) ?_ ?_
      fun _ _ => trivial
    · exact ⟨List.nodup_nil, fun i hi => by cases hi⟩
    · intro hist w tx h _
      exact h.step
  exact hinv.nodup

/-- A list without repeated keys has at most one entry exactly if all entries have one key. -/
theorem length_le_one_iff {α β : Type} [Inhabited β] {key : α → β} {l : List α}
    (h : (l.map key).Nodup) : l.length ≤ 1 ↔ ∃ k, ∀ x ∈ l, key x = k := by
  match l, h with
  | [], _ =>
      refine ⟨fun _ => ⟨default, fun x hx => ?_⟩, fun _ => Nat.zero_le 1⟩
      cases hx
  | [y], _ =>
      refine ⟨fun _ => ⟨key y, fun x hx => ?_⟩, fun _ => Nat.le_refl 1⟩
      rw [List.mem_singleton.mp hx]
  | y :: z :: rest, h =>
      constructor
      · intro hle
        simp at hle
      · rintro ⟨k, hk⟩
        rw [List.map_cons, List.map_cons, hk y (by simp), hk z (by simp)] at h
        exact absurd List.mem_cons_self (List.nodup_cons.mp h).1

/-- **One record, one mint.**  At most one import of the leaf of a registry is accepted in a
run, if and only if all its accepted imports name the same serial. -/
theorem mint_once_iff (ch : Chain T) (tokens : T) (ts : List (Tx ch)) (registry : SorobanString)
    (leaf : Bytes32) :
    ((imports ch (steps (apply ch) (genesis tokens) ts)).filter fun i =>
        i.registry = registry ∧ i.leaf = leaf).length ≤ 1 ↔
      ∃ serial, ∀ i ∈ imports ch (steps (apply ch) (genesis tokens) ts),
        i.registry = registry → i.leaf = leaf → i.serial = serial := by
  have hnodup : ((imports ch (steps (apply ch) (genesis tokens) ts)).map Import.key).Nodup :=
    nodup_keys tokens ts
  generalize imports ch (steps (apply ch) (genesis tokens) ts) = log at hnodup ⊢
  have hmem : ∀ i, i ∈ log.filter (fun i => i.registry = registry ∧ i.leaf = leaf) ↔
      i ∈ log ∧ i.registry = registry ∧ i.leaf = leaf := by
    intro i
    rw [List.mem_filter, decide_eq_true_eq]
  rw [length_le_one_iff (hnodup.sublist (List.filter_sublist.map _))]
  constructor
  · rintro ⟨key, hkey⟩
    refine ⟨key.2, fun i hi hregistry hleaf => ?_⟩
    rw [← hkey i ((hmem i).mpr ⟨hi, hregistry, hleaf⟩)]
    rfl
  · rintro ⟨serial, hserial⟩
    refine ⟨(registry, serial), fun i hi => ?_⟩
    obtain ⟨hlog, hregistry, hleaf⟩ := (hmem i).mp hi
    unfold Import.key
    rw [hregistry, hserial i hlog hregistry hleaf]

end World

/-! ## Runs of the bridge -/

namespace Sample

/-- The name `VERRA` of the source registry. -/
def verra : SorobanString := [86, 69, 82, 82, 65]

/-- The bridge is set up, and its admin publishes `root`. -/
def publish (root : Bytes32) : List (Tx chain) :=
  [tx 0 1 (.registry registry (.init (.account 0) 1 1)),
   tx 0 2 (.bridge (.init (.account 0) registry)),
   tx 0 3 (.registry registry (.addBridge (.account 0) (.contract 3))),
   tx 0 4 (.bridge (.updateRegistryRoot (.account 0) verra root 100))]

/-- Account 4 imports `leaf` under `serial`. -/
def importLeaf (serial : SorobanString) (leaf : Bytes32) (proof : List Bytes32) : Tx chain :=
  tx 4 5 (.bridge (.bridgeIn (.account 4) verra serial leaf proof metadata))

end Sample

namespace World

/-- One leaf, imported under the serials `A` and `B`, gives the credits 1 and 2. -/
theorem mint_not_once :
    ¬ ∀ (T : Type) (ch : Chain T) (tokens : T) (ts : List (Tx ch)) (registry : SorobanString)
        (leaf : Bytes32),
      ((imports ch (steps (apply ch) (genesis tokens) ts)).filter fun i =>
        i.registry = registry ∧ i.leaf = leaf).length ≤ 1 := by
  intro h
  have hle := h Sample.Balances Sample.chain (fun _ _ => 1000000)
    (Sample.publish 5#256 ++ [Sample.importLeaf [65] 5#256 [], Sample.importLeaf [66] 5#256 []])
    Sample.verra 5#256
  exact absurd hle (by decide)

/-! ## The proof of an accepted import -/

/-- An accepted `bridge_in` has folded its proof onto the presented value, up to the stored
root. -/
theorem fold_of_bridgeIn (hexec : exec ch w tx = .ok w') {bridger : Address}
    {registry serial : SorobanString} {x : Bytes32} {proof : List Bytes32}
    {metadata : CreditMetadata}
    (hcall : tx.call = .bridge (.bridgeIn bridger registry serial x proof metadata)) :
    ∃ rootInfo, w.bridge.registryRoots registry = some rootInfo ∧
      PairTree.fold (MerkleBridge.hashPair ch) x proof = rootInfo.root := by
  have hstep := exec_step hexec
  rw [hcall] at hstep
  cases hstep with
  | bridge hchange =>
      cases hchange with
      | keep _ _ hread =>
          rcases hread with ⟨_, _, _, hread⟩ | ⟨_, hread⟩
          · cases hread
          · cases hread
      | bridgeIn hchecks _ _ => exact hchecks.proof

/-- **Soundness of the inclusion proof.**  Let the stored root of the source registry be the
root of the tree `t`, let no inner node of `t` have a second preimage, and let the pair hash
never yield a leaf of `t`.  Then the value `x` that an accepted `bridge_in` presents is a
leaf of `t` if and only if `x` is not itself a value of the pair hash. -/
theorem proof_sound_iff (ch : Chain T) (w : World T) (tx : Tx ch) (t : PairTree Bytes32)
    (hbind : t.Binding (MerkleBridge.hashPair ch))
    (hleaf : ∀ a b, MerkleBridge.hashPair ch a b ∉ t.leaves)
    (bridger : Address) (registry serial : SorobanString) (x : Bytes32) (proof : List Bytes32)
    (metadata : CreditMetadata) (rootInfo : RegistryRoot)
    (hstored : w.bridge.registryRoots registry = some rootInfo)
    (hroot : rootInfo.root = t.root (MerkleBridge.hashPair ch))
    (hcall : tx.call = .bridge (.bridgeIn bridger registry serial x proof metadata))
    (hok : Succeeds ch w tx) :
    x ∈ t.leaves ↔ ∀ a b, MerkleBridge.hashPair ch a b ≠ x := by
  obtain ⟨rootInfo', hstored', hfold⟩ := fold_of_bridgeIn hok.exec_eq hcall
  obtain rfl : rootInfo = rootInfo' := Option.some.inj (hstored.symm.trans hstored')
  rw [hroot] at hfold
  exact PairTree.mem_leaves_iff hbind hleaf hfold

end World

namespace Sample

/-- The tree of the leaves 1 and 2. -/
def pair : PairTree Bytes32 := .node (.leaf 1#256) (.leaf 2#256)

/-- Two values with a known concatenation. -/
theorem append_eq {l r : Bytes32} (h : (l ++ r).toNat = 2 ^ 256 + 2) : l = 1#256 ∧ r = 2#256 := by
  have hr : r.toNat < 2 ^ 256 := r.isLt
  rw [BitVec.toNat_append, ← Nat.shiftLeft_add_eq_or_of_lt hr, Nat.shiftLeft_eq] at h
  constructor
  · apply BitVec.eq_of_toNat_eq
    show l.toNat = 1
    omega
  · apply BitVec.eq_of_toNat_eq
    show r.toNat = 2
    omega

theorem pair_root : pair.root (MerkleBridge.hashPair chain) =
    0xd6ba9329f8932c12192b37849f772104d20048f76434a3290512d9d814e4116f#256 := by
  rfl

theorem sha256_pair (x : BitVec 512) :
    (sha256 512 x = pair.root (MerkleBridge.hashPair chain) ∧ x.toNat = 2 ^ 256 + 2) ∨
      sha256 512 x = 0#256 := by
  unfold sha256
  rw [if_neg (by simp), if_neg (by simp)]
  by_cases hx : x.toNat = 2 ^ 256 + 2
  · rw [if_pos ⟨rfl, hx⟩, pair_root]
    exact Or.inl ⟨rfl, hx⟩
  · rw [if_neg fun h => hx h.2]
    exact Or.inr rfl

/-- The pair hash of the sample yields the root of `pair` for the two leaves only. -/
theorem hashPair_eq (a b : Bytes32) :
    (MerkleBridge.hashPair chain a b = pair.root (MerkleBridge.hashPair chain) ∧
        (a = 1#256 ∧ b = 2#256 ∨ a = 2#256 ∧ b = 1#256)) ∨
      MerkleBridge.hashPair chain a b = 0#256 := by
  unfold MerkleBridge.hashPair
  by_cases hab : a < b
  · rw [if_pos hab]
    exact (sha256_pair (a ++ b)).imp_left fun ⟨heq, hx⟩ => ⟨heq, Or.inl (append_eq hx)⟩
  · rw [if_neg hab]
    exact (sha256_pair (b ++ a)).imp_left fun ⟨heq, hx⟩ => ⟨heq, Or.inr (append_eq hx).symm⟩

theorem pair_binding : pair.Binding (MerkleBridge.hashPair chain) := by
  refine ⟨fun a b hab => ?_, trivial, trivial⟩
  rcases hashPair_eq a b with ⟨-, hleaves⟩ | hzero
  · exact hleaves
  · rw [hzero] at hab
    exact absurd hab (by decide)

theorem pair_leaf_free (a b : Bytes32) : MerkleBridge.hashPair chain a b ∉ pair.leaves := by
  rcases hashPair_eq a b with ⟨heq, -⟩ | hzero
  · rw [heq]
    decide
  · rw [hzero]
    decide

end Sample

namespace World

/-- Account 4 imports the leaf 1, with the sibling 2. -/
theorem proof_sound_leaf : ¬ ∃ a b, MerkleBridge.hashPair Sample.chain a b = 1#256 := by
  rintro ⟨a, b, hab⟩
  refine (proof_sound_iff Sample.chain
    (run (apply Sample.chain) Sample.start
      (Sample.publish (Sample.pair.root (MerkleBridge.hashPair Sample.chain))))
    (Sample.importLeaf [65] 1#256 [2#256]) Sample.pair Sample.pair_binding Sample.pair_leaf_free
    (.account 4) Sample.verra [65] 1#256 [2#256] Sample.metadata _ (by rfl) (by rfl) (by rfl)
    ⟨_, by rfl⟩).mp ?_ a b hab
  decide

/-! ### The positions of a published tree -/

/-- **Proofs and positions.**  In a tree of any shape the siblings of a leaf position verify
the value there.  In a perfect tree whose inner nodes have no second preimage, a proof as long
as the tree is deep verifies a value only if the proof lists the siblings of a position of
that value.  A pair hash that is injective on unordered pairs has no second preimages at all
(`UnorderedInjective.binding`). -/
theorem verifyProof_positions (ch : Chain T) (t : PairTree Bytes32) :
    (∀ p : PairTree.Position t,
      MerkleBridge.verifyProof ch p.value (p.siblings (MerkleBridge.hashPair ch))
        (t.root (MerkleBridge.hashPair ch)) = true) ∧
    ∀ n, PairTree.Perfect n t → t.Binding (MerkleBridge.hashPair ch) →
      ∀ (x : Bytes32) (proof : List Bytes32), proof.length = n →
        MerkleBridge.verifyProof ch x proof (t.root (MerkleBridge.hashPair ch)) = true →
        ∃ p : PairTree.Position t,
          p.value = x ∧ p.siblings (MerkleBridge.hashPair ch) = proof := by
  constructor
  · intro p
    exact MerkleBridge.verifyProof_eq_true.mpr
      (PairTree.fold_siblings MerkleBridge.hashPair_comm p)
  · intro n hperfect hbind x proof hlen haccepted
    have hfold := MerkleBridge.verifyProof_eq_true.mp haccepted
    exact PairTree.exists_position_of_fold hperfect hbind hlen hfold

/-- The proof with the one sibling 1 is that of the leaf 2. -/
theorem verifyProof_positions_pair :
    ∃ p : PairTree.Position Sample.pair,
      p.value = 2#256 ∧ p.siblings (MerkleBridge.hashPair Sample.chain) = [1#256] :=
  (verifyProof_positions Sample.chain Sample.pair).2 1 (.node (.leaf _) (.leaf _))
    Sample.pair_binding 2#256 [1#256] rfl (by decide)

/-- Account 4 imports the root of the tree of the leaves 1 and 2, with the empty proof. -/
theorem proof_not_sound :
    ¬ ∀ (T : Type) (ch : Chain T) (tokens : T) (ts : List (Tx ch)) (tx : Tx ch)
        (t : PairTree Bytes32), t.Binding (MerkleBridge.hashPair ch) →
      (∀ a b, MerkleBridge.hashPair ch a b ∉ t.leaves) →
      ∀ (bridger : Address) (registry serial : SorobanString) (x : Bytes32)
        (proof : List Bytes32) (metadata : CreditMetadata) (rootInfo : RegistryRoot),
        (run (apply ch) (genesis tokens) ts).bridge.registryRoots registry = some rootInfo →
        rootInfo.root = t.root (MerkleBridge.hashPair ch) →
        tx.call = .bridge (.bridgeIn bridger registry serial x proof metadata) →
        Succeeds ch (run (apply ch) (genesis tokens) ts) tx → x ∈ t.leaves := by
  intro h
  have hmem := h Sample.Balances Sample.chain (fun _ _ => 1000000)
    (Sample.publish (Sample.pair.root (MerkleBridge.hashPair Sample.chain)))
    (Sample.importLeaf [65] (Sample.pair.root (MerkleBridge.hashPair Sample.chain)) [])
    Sample.pair Sample.pair_binding Sample.pair_leaf_free (.account 4) Sample.verra [65] _ []
    Sample.metadata _ (by rfl) (by rfl) (by rfl) ⟨_, by rfl⟩
  rw [Sample.pair_root] at hmem
  exact absurd hmem (by decide)

end World

end CarbonVeritas
