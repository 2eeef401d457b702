/-
# The MerkleBridge contract

`contracts/merkle-bridge`: the storage of the contract (`storage.rs`), its events
(`events.rs`) and its entry points (`lib.rs`).

`exec_bridgeChange` says once what a call can do: it reads, it wires the bridge for the
first time, it publishes a root, it imports a credit or it retires one.
-/
import CarbonVeritas.Ledger
import CarbonVeritas.PairTree

namespace CarbonVeritas

/-! ## Events and storage -/

/-- The events of `events.rs`, with their topics as the constructor. -/
inductive BridgeEvent where
  | creditBridged (registry serial : SorobanString) (creditId : ℕ)
  | bridgeOut (creditId : ℕ) (owner : Address)
  | rootUpdated (registry : SorobanString) (root : Bytes32)
  deriving DecidableEq, Repr

structure RegistryRoot where
  root : Bytes32
  blockHeight : ℕ
  updatedAt : ℕ
  deriving DecidableEq, Repr

/-- The instance storage of the bridge, with the events it has published. -/
structure MerkleBridge where
  /-- `DataKey::Admin` -/
  admin : Option Address := none
  /-- `DataKey::CreditRegistry` -/
  creditRegistry : Option Address := none
  /-- `DataKey::RegistryRoot(registry)` -/
  registryRoots : SorobanString → Option RegistryRoot := fun _ => none
  /-- `DataKey::BridgedStatus(registry, serial)` -/
  bridged : SorobanString × SorobanString → Bool := fun _ => false
  events : List BridgeEvent := []

namespace MerkleBridge

/-! ### `storage.rs` -/

section Storage

variable (b : MerkleBridge)

def readAdmin : Result Address := orPanic b.admin .unwrap

@[simps -fullyApplied] def writeAdmin (admin : Address) : MerkleBridge :=
  { b with admin := some admin }

def readCreditRegistry : Result Address := orPanic b.creditRegistry .unwrap

@[simps -fullyApplied] def writeCreditRegistry (creditRegistry : Address) : MerkleBridge :=
  { b with creditRegistry := some creditRegistry }

def readRegistryRoot (registry : SorobanString) : Option RegistryRoot := b.registryRoots registry

@[simps -fullyApplied] def writeRegistryRoot (registry : SorobanString)
    (rootInfo : RegistryRoot) : MerkleBridge :=
  { b with registryRoots := Function.update b.registryRoots registry (some rootInfo) }

def isBridged (registry serial : SorobanString) : Bool := b.bridged (registry, serial)

@[simps -fullyApplied] def setBridged (registry serial : SorobanString) : MerkleBridge :=
  { b with bridged := Function.update b.bridged (registry, serial) true }

/-- `env.events().publish` -/
@[simps -fullyApplied] def emit (event : BridgeEvent) : MerkleBridge :=
  { b with events := b.events ++ [event] }

end Storage

/-! ### Entry points -/

variable {T : Type} (ch : Chain T) (env : Env) (b : MerkleBridge) (l : Ledger T)

def init (admin creditRegistry : Address) : Result (Unit × MerkleBridge) := do
  panicIf (b.admin.isSome = true) .alreadyExists
  let b := b.writeAdmin admin
  let b := b.writeCreditRegistry creditRegistry
  return ((), b)

/-- One level of `verify_proof`: `sha256` of the two values, the smaller one first. -/
def hashPair (computed sibling : Bytes32) : Bytes32 :=
  let (left, right) := if computed < sibling then (computed, sibling) else (sibling, computed)
  ch.sha256 512 (left ++ right)

def verifyProof (leaf : Bytes32) (proof : List Bytes32) (root : Bytes32) : Bool :=
  decide (PairTree.fold (hashPair ch) leaf proof = root)

def bridgeIn (bridger : Address) (sourceRegistry sourceSerial : SorobanString) (leaf : Bytes32)
    (merkleProof : List Bytes32) (metadata : CreditMetadata) :
    Result (ℕ × MerkleBridge × Ledger T) := do
  env.requireAuth bridger
  let rootInfo ← orPanic (b.readRegistryRoot sourceRegistry) (.error .registryNotFound)
  panicIf (¬ verifyProof ch leaf merkleProof rootInfo.root) .invalidProof
  panicIf (b.isBridged sourceRegistry sourceSerial) .alreadyBridged
  let creditRegistry ← b.readCreditRegistry
  let (creditId, l) ← l.callRegistry ch creditRegistry fun s =>
    s.mintBridged ch.sha256 (env.calledBy (ch.address .bridge)) (ch.address .bridge) bridger
      metadata
  let b := b.setBridged sourceRegistry sourceSerial
  let b := b.emit (.creditBridged sourceRegistry sourceSerial creditId)
  return (creditId, b, l)

def bridgeOut (owner : Address) (creditId : ℕ) : Result (Bool × MerkleBridge × Ledger T) := do
  env.requireAuth owner
  let creditRegistry ← b.readCreditRegistry
  let ownerOnChain ← l.readRegistry ch creditRegistry fun s => s.getOwner creditId
  panicIf (ownerOnChain ≠ owner) .notAuthorized
  let (_, l) ← l.callRegistry ch creditRegistry fun s =>
    s.markRetired (env.calledBy (ch.address .bridge)) (ch.address .bridge) creditId
  let b := b.emit (.bridgeOut creditId owner)
  return (true, b, l)

def updateRegistryRoot (admin : Address) (registry : SorobanString) (newRoot : Bytes32)
    (blockHeight : ℕ) : Result (Bool × MerkleBridge) := do
  let storedAdmin ← b.readAdmin
  env.requireAuth admin
  panicIf (admin ≠ storedAdmin) .notAuthorized
  let rootInfo : RegistryRoot :=
    { root := newRoot, blockHeight := blockHeight, updatedAt := env.timestamp }
  let b := b.writeRegistryRoot registry rootInfo
  let b := b.emit (.rootUpdated registry newRoot)
  return (true, b)

def getRegistryRoot (registry : SorobanString) : Option RegistryRoot := b.readRegistryRoot registry

/-! ### Calls -/

/-- The public entry points of the contract. -/
inductive Call where
  | init (admin creditRegistry : Address)
  | bridgeIn (bridger : Address) (sourceRegistry sourceSerial : SorobanString) (leaf : Bytes32)
      (merkleProof : List Bytes32) (metadata : CreditMetadata)
  | bridgeOut (owner : Address) (creditId : ℕ)
  | verifyProof (leaf : Bytes32) (proof : List Bytes32) (root : Bytes32)
  | updateRegistryRoot (admin : Address) (registry : SorobanString) (newRoot : Bytes32)
      (blockHeight : ℕ)
  | getRegistryRoot (registry : SorobanString)

/-- The storage after a call; what the call returns is dropped. -/
def exec : Call → Result (MerkleBridge × Ledger T)
  | .init admin creditRegistry => (b.init admin creditRegistry).map fun r => (r.2, l)
  | .bridgeIn bridger sourceRegistry sourceSerial leaf merkleProof metadata =>
      (bridgeIn ch env b l bridger sourceRegistry sourceSerial leaf merkleProof metadata).map
        Prod.snd
  | .bridgeOut owner creditId => (bridgeOut ch env b l owner creditId).map Prod.snd
  | .verifyProof _ _ _ => .ok (b, l)
  | .updateRegistryRoot admin registry newRoot blockHeight =>
      (b.updateRegistryRoot env admin registry newRoot blockHeight).map fun r => (r.2, l)
  | .getRegistryRoot _ => .ok (b, l)

/-! ## What each entry point does -/

section Spec

variable {ch env b l} {b' : MerkleBridge} {l' : Ledger T}

/-- The sorted order makes the pair hash symmetric. -/
theorem hashPair_comm (x y : Bytes32) : hashPair ch x y = hashPair ch y x := by
  unfold hashPair
  by_cases hxy : x < y
  · have hyx : ¬ y < x := by
      rw [BitVec.lt_def] at hxy ⊢
      omega
    rw [if_pos hxy, if_neg hyx]
  · by_cases hyx : y < x
    · rw [if_neg hxy, if_pos hyx]
    · have heq : x = y := by
        apply BitVec.eq_of_toNat_eq
        rw [BitVec.lt_def] at hxy hyx
        omega
      rw [heq]

theorem verifyProof_eq_true {leaf root : Bytes32} {proof : List Bytes32} :
    verifyProof ch leaf proof root = true ↔ PairTree.fold (hashPair ch) leaf proof = root := by
  unfold verifyProof
  rw [decide_eq_true_eq]

/-- Every leaf of a tree has a proof that `verify_proof` accepts against its root. -/
theorem exists_verifyProof {t : PairTree Bytes32} {leaf : Bytes32} (h : leaf ∈ t.leaves) :
    ∃ proof, verifyProof ch leaf proof (t.root (hashPair ch)) = true := by
  obtain ⟨proof, hfold⟩ := PairTree.exists_proof hashPair_comm h
  exact ⟨proof, verifyProof_eq_true.mpr hfold⟩

theorem init_eq_ok {admin creditRegistry : Address} {u : Unit} :
    b.init admin creditRegistry = .ok (u, b') ↔
      b.admin = none ∧ b' = (b.writeAdmin admin).writeCreditRegistry creditRegistry := by
  simp only [init, bind_eq_ok, panicIf_eq_ok, pure_eq_ok, Prod.mk.injEq, true_and,
    Option.not_isSome_iff_eq_none, exists_and_left, exists_const]
  constructor
  · rintro ⟨hnone, rfl⟩
    exact ⟨hnone, rfl⟩
  · rintro ⟨hnone, rfl⟩
    exact ⟨hnone, rfl⟩

/-- The checks of `bridge_in`; `s` is the registry after the mint. -/
structure MayBridge (ch : Chain T) (env : Env) (b : MerkleBridge) (l : Ledger T)
    (bridger : Address) (sourceRegistry sourceSerial : SorobanString) (leaf : Bytes32)
    (merkleProof : List Bytes32) (metadata : CreditMetadata) (r : Address) (id : ℕ)
    (s : CreditRegistry) : Prop where
  authorised : env.Authorised bridger
  proof : ∃ rootInfo, b.registryRoots sourceRegistry = some rootInfo ∧
    PairTree.fold (hashPair ch) leaf merkleProof = rootInfo.root
  fresh : b.bridged (sourceRegistry, sourceSerial) = false
  wired : b.creditRegistry = some r
  isRegistry : ch.isRegistry r = true
  minted : (l.registries r).mintBridged ch.sha256 (env.calledBy (ch.address .bridge))
    (ch.address .bridge) bridger metadata = .ok (id, s)

/-- The mint is a call of the registry that returns. -/
theorem MayBridge.exec_eq {bridger : Address} {sourceRegistry sourceSerial : SorobanString}
    {leaf : Bytes32} {merkleProof : List Bytes32} {metadata : CreditMetadata} {r : Address}
    {id : ℕ} {s : CreditRegistry}
    (h : MayBridge ch env b l bridger sourceRegistry sourceSerial leaf merkleProof metadata r id
      s) :
    CreditRegistry.exec ch.sha256 (env.calledBy (ch.address .bridge)) (l.registries r)
      (.mintBridged (ch.address .bridge) bridger metadata) = .ok s := by
  rw [CreditRegistry.exec, h.minted]
  rfl

theorem bridgeIn_eq_ok {bridger : Address} {sourceRegistry sourceSerial : SorobanString}
    {leaf : Bytes32} {merkleProof : List Bytes32} {metadata : CreditMetadata} {id : ℕ} :
    bridgeIn ch env b l bridger sourceRegistry sourceSerial leaf merkleProof metadata
        = .ok (id, b', l') ↔
      ∃ r s, MayBridge ch env b l bridger sourceRegistry sourceSerial leaf merkleProof metadata
          r id s ∧
        b' = (b.setBridged sourceRegistry sourceSerial).emit
          (.creditBridged sourceRegistry sourceSerial id) ∧ l' = l.writeRegistry r s := by
  have hbridged : ¬ b.isBridged sourceRegistry sourceSerial = true ↔
      b.bridged (sourceRegistry, sourceSerial) = false := by
    unfold isBridged
    rw [Bool.not_eq_true]
  simp only [bridgeIn, readRegistryRoot, readCreditRegistry, bind_eq_ok,
    Env.requireAuth_eq_ok, orPanic_eq_ok, panicIf_eq_ok, not_not, verifyProof_eq_true, hbridged,
    Ledger.callRegistry_eq_ok, pure_eq_ok, Prod.exists, Prod.mk.injEq]
  constructor
  · rintro ⟨-, hauth, rootInfo, hroot, -, hproof, -, hfresh, r, hwired, _, _,
      ⟨hr, s, hmint, rfl⟩, rfl, rfl, rfl⟩
    exact ⟨r, s, ⟨hauth, ⟨rootInfo, hroot, hproof⟩, hfresh, hwired, hr, hmint⟩, rfl, rfl⟩
  · rintro ⟨r, s, ⟨hauth, ⟨rootInfo, hroot, hproof⟩, hfresh, hwired, hr, hmint⟩, rfl, rfl⟩
    exact ⟨(), hauth, rootInfo, hroot, (), hproof, (), hfresh, r, hwired, id, _,
      ⟨hr, s, hmint, rfl⟩, rfl, rfl, rfl⟩

/-- The checks of `bridge_out`. -/
structure MayBridgeOut (ch : Chain T) (env : Env) (b : MerkleBridge) (l : Ledger T)
    (owner : Address) (id : ℕ) (r : Address) (credit : CreditMetadata) : Prop where
  authorised : env.Authorised owner
  wired : b.creditRegistry = some r
  isRegistry : ch.isRegistry r = true
  owner : (l.registries r).owners id = some owner
  retirer : (l.registries r).retirers (ch.address .bridge) = true
  stored : (l.registries r).credits id = some credit
  active : credit.status = .active

/-- The retirement is a call of the registry that returns. -/
theorem MayBridgeOut.exec_eq {owner : Address} {id : ℕ} {r : Address} {credit : CreditMetadata}
    (h : MayBridgeOut ch env b l owner id r credit) :
    CreditRegistry.exec ch.sha256 (env.calledBy (ch.address .bridge)) (l.registries r)
        (.markRetired (ch.address .bridge) id) =
      .ok ((l.registries r).writeCredit id { credit with status := .retired }) := by
  have hcall : (l.registries r).markRetired (env.calledBy (ch.address .bridge))
      (ch.address .bridge) id =
      .ok ((), (l.registries r).writeCredit id { credit with status := .retired }) :=
    CreditRegistry.markRetired_eq_ok.mpr
      ⟨Env.calledBy_authorised_self _ _, h.retirer, credit, h.stored, h.active, rfl⟩
  rw [CreditRegistry.exec, hcall]
  rfl

theorem bridgeOut_eq_ok {owner : Address} {id : ℕ} {v : Bool} :
    bridgeOut ch env b l owner id = .ok (v, b', l') ↔
      ∃ r credit, MayBridgeOut ch env b l owner id r credit ∧ v = true ∧
        b' = b.emit (.bridgeOut id owner) ∧
        l' = l.writeRegistry r
          ((l.registries r).writeCredit id { credit with status := .retired }) := by
  simp only [bridgeOut, readCreditRegistry, bind_eq_ok, Env.requireAuth_eq_ok, orPanic_eq_ok,
    panicIf_eq_ok, not_not, Ledger.readRegistry_eq_ok, Ledger.callRegistry_eq_ok,
    CreditRegistry.getOwner_eq_ok, CreditRegistry.markRetired_eq_ok,
    Env.calledBy_authorised_self, pure_eq_ok, Prod.exists, Prod.mk.injEq, true_and]
  constructor
  · rintro ⟨-, hauth, r, hwired, _, ⟨hr, howner⟩, -, rfl, -, _,
      ⟨-, _, ⟨hretirer, credit, hstored, hactive, rfl⟩, rfl⟩, rfl, rfl, rfl⟩
    exact ⟨r, credit, ⟨hauth, hwired, hr, howner, hretirer, hstored, hactive⟩, rfl, rfl, rfl⟩
  · rintro ⟨r, credit, ⟨hauth, hwired, hr, howner, hretirer, hstored, hactive⟩, rfl, rfl, rfl⟩
    exact ⟨(), hauth, r, hwired, _, ⟨hr, howner⟩, (), rfl, (), _,
      ⟨hr, _, ⟨hretirer, credit, hstored, hactive, rfl⟩, rfl⟩, rfl, rfl, rfl⟩

theorem updateRegistryRoot_eq_ok {admin : Address} {registry : SorobanString} {newRoot : Bytes32}
    {blockHeight : ℕ} {v : Bool} :
    b.updateRegistryRoot env admin registry newRoot blockHeight = .ok (v, b') ↔
      b.admin = some admin ∧ env.Authorised admin ∧ v = true ∧
        b' = (b.writeRegistryRoot registry ⟨newRoot, blockHeight, env.timestamp⟩).emit
          (.rootUpdated registry newRoot) := by
  simp only [updateRegistryRoot, readAdmin, bind_eq_ok, Env.requireAuth_eq_ok, orPanic_eq_ok,
    panicIf_eq_ok, not_not, pure_eq_ok, Prod.mk.injEq]
  constructor
  · rintro ⟨_, hadmin, -, hauth, -, rfl, rfl, rfl⟩
    exact ⟨hadmin, hauth, rfl, rfl⟩
  · rintro ⟨hadmin, hauth, rfl, rfl⟩
    exact ⟨admin, hadmin, (), hauth, (), rfl, rfl, rfl⟩

/-- The arguments of a call of `init`. -/
def Call.initArgs : Call → Option (Address × Address)
  | .init admin creditRegistry => some (admin, creditRegistry)
  | _ => none

/-- What a call that returns does. -/
inductive BridgeChange (ch : Chain T) (env : Env) (b : MerkleBridge) (l : Ledger T)
    (b' : MerkleBridge) (l' : Ledger T) : Call → Prop where
  | keep {call : Call} (hb : b' = b) (hl : l' = l)
      (hread : (∃ leaf proof root, call = .verifyProof leaf proof root) ∨
        ∃ registry, call = .getRegistryRoot registry) : BridgeChange ch env b l b' l' call
  | init {admin creditRegistry : Address} (hnone : b.admin = none)
      (hb : b' = (b.writeAdmin admin).writeCreditRegistry creditRegistry) (hl : l' = l) :
      BridgeChange ch env b l b' l' (.init admin creditRegistry)
  | updateRoot {admin : Address} {registry : SorobanString} {newRoot : Bytes32}
      {blockHeight : ℕ} (hadmin : b.admin = some admin) (hauth : env.Authorised admin)
      (hb : b' = (b.writeRegistryRoot registry ⟨newRoot, blockHeight, env.timestamp⟩).emit
        (.rootUpdated registry newRoot)) (hl : l' = l) :
      BridgeChange ch env b l b' l' (.updateRegistryRoot admin registry newRoot blockHeight)
  | bridgeIn {bridger : Address} {sourceRegistry sourceSerial : SorobanString} {leaf : Bytes32}
      {merkleProof : List Bytes32} {metadata : CreditMetadata} {r : Address} {id : ℕ}
      {s : CreditRegistry}
      (hchecks : MayBridge ch env b l bridger sourceRegistry sourceSerial leaf merkleProof
        metadata r id s)
      (hb : b' = (b.setBridged sourceRegistry sourceSerial).emit
        (.creditBridged sourceRegistry sourceSerial id))
      (hl : l' = l.writeRegistry r s) :
      BridgeChange ch env b l b' l'
        (.bridgeIn bridger sourceRegistry sourceSerial leaf merkleProof metadata)
  | bridgeOut {owner : Address} {id : ℕ} {r : Address} {credit : CreditMetadata}
      (hchecks : MayBridgeOut ch env b l owner id r credit)
      (hb : b' = b.emit (.bridgeOut id owner))
      (hl : l' = l.writeRegistry r
        ((l.registries r).writeCredit id { credit with status := .retired })) :
      BridgeChange ch env b l b' l' (.bridgeOut owner id)

theorem exec_bridgeChange {call : Call} (h : exec ch env b l call = .ok (b', l')) :
    BridgeChange ch env b l b' l' call := by
  cases call <;> simp only [exec, map_eq_ok, Prod.exists, Except.ok.injEq, Prod.mk.injEq] at h
  case init admin creditRegistry =>
    obtain ⟨_, b', hinit, rfl, rfl⟩ := h
    obtain ⟨hnone, hb⟩ := init_eq_ok.mp hinit
    exact .init hnone hb rfl
  case bridgeIn =>
    obtain ⟨_, b', l', hin, rfl, rfl⟩ := h
    obtain ⟨r, s, hchecks, hb, hl⟩ := bridgeIn_eq_ok.mp hin
    exact .bridgeIn hchecks hb hl
  case bridgeOut =>
    obtain ⟨_, b', l', hout, rfl, rfl⟩ := h
    obtain ⟨r, credit, hchecks, -, hb, hl⟩ := bridgeOut_eq_ok.mp hout
    exact .bridgeOut hchecks hb hl
  case updateRegistryRoot =>
    obtain ⟨_, b', hupdate, rfl, rfl⟩ := h
    obtain ⟨hadmin, hauth, -, hb⟩ := updateRegistryRoot_eq_ok.mp hupdate
    exact .updateRoot hadmin hauth hb rfl
  case verifyProof =>
    obtain ⟨rfl, rfl⟩ := h
    exact .keep rfl rfl (Or.inl ⟨_, _, _, rfl⟩)
  case getRegistryRoot =>
    obtain ⟨rfl, rfl⟩ := h
    exact .keep rfl rfl (Or.inr ⟨_, rfl⟩)

/-- Only `init` changes the stored admin and registry address, and only while there is no
stored admin. -/
theorem BridgeChange.wiring {call : Call} (h : BridgeChange ch env b l b' l' call) :
    (call.initArgs = none ∧ b'.admin = b.admin ∧ b'.creditRegistry = b.creditRegistry) ∨
      ∃ admin r, call.initArgs = some (admin, r) ∧ b.admin = none ∧
        b'.admin = some admin ∧ b'.creditRegistry = some r := by
  cases h with
  | keep hb _ hread =>
      subst hb
      rcases hread with ⟨_, _, _, rfl⟩ | ⟨_, rfl⟩
      · exact Or.inl ⟨rfl, rfl, rfl⟩
      · exact Or.inl ⟨rfl, rfl, rfl⟩
  | @init admin r hnone hb _ =>
      subst hb
      exact Or.inr ⟨admin, r, rfl, hnone, rfl, rfl⟩
  | updateRoot _ _ hb _ =>
      subst hb
      exact Or.inl ⟨rfl, rfl, rfl⟩
  | bridgeIn _ hb _ =>
      subst hb
      exact Or.inl ⟨rfl, rfl, rfl⟩
  | bridgeOut _ hb _ =>
      subst hb
      exact Or.inl ⟨rfl, rfl, rfl⟩

end Spec

end MerkleBridge

end CarbonVeritas
