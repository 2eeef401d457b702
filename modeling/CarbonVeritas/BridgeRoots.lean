/-
# The root of an import

The service checks the proof of an import against the root that the caller names, and the
contract checks it against the root that it stores at that moment.  The stored root may change
between the two checks.  Both fold the same leaf and the same siblings, so both have compared the
fold with their root, and the root that ends up in the record is the one that was stored when the
credit was minted (`bridgeIn_same_root`).  This does not depend on how the contract reads the
metadata; it reads none of what is sent (`bridgeIn_fails`), so the example has contracts that read
the vectors of `scval.ts`.
-/
import CarbonVeritas.BridgeRoundTrip
import CarbonVeritas.Interference

namespace CarbonVeritas

namespace BridgeService

open Program (Among exec among_ask_ok among_bind_ok among_throwIf_ok)
open ApiService
open StellarHost (bytes32)

variable {T : Type} {host : StellarHost T} {config : ApiConfig}

/-! ## The two calls of the contract -/

/-- A read-only check that returns has decoded its three arguments. -/
theorem answer_verifyProof_eq_ok {leaf root : String} {proof : List String} {n : ℕ}
    {w : World T} {verified : Bool}
    (h : (host.answer (.verifyProof leaf proof root) n w).1 = .ok verified) :
    ∃ leafBytes proofBytes rootBytes, bytes32 leaf = .ok leafBytes ∧
      proof.mapM bytes32 = .ok proofBytes ∧ bytes32 root = .ok rootBytes ∧
      verified = MerkleBridge.verifyProof host.ch leafBytes proofBytes rootBytes := by
  have hcall := StellarHost.invoke_eq_ok.mp (Prod.ext h rfl)
  simp only [StellarHost.args_bind_eq_ok, StellarHost.args_pure_eq_ok] at hcall
  obtain ⟨leafBytes, hleaf, proofBytes, hproof, rootBytes, hroot, heq⟩ := hcall
  have hverified := (Prod.mk.inj (Except.ok.inj heq)).1
  exact ⟨leafBytes, proofBytes, rootBytes, hleaf, hproof, hroot, hverified.symm⟩

/-- The contract takes the first element of the list for the leaf and the rest for the proof. -/
theorem answer_bridgeIn_eq_ok {bridger sourceRegistry sourceSerial leaf merkleRoot : String}
    {proof : List String} {metadata : CreditMetadataInput} {n : ℕ} {w : World T}
    {receipt : BridgeReceipt}
    (h : (host.answer (.bridgeIn bridger sourceRegistry sourceSerial (leaf :: proof) merkleRoot
      metadata) n w).1 = .ok receipt) :
    ∃ bridgerAddress leafBytes proofBytes credit r id s, bytes32 leaf = .ok leafBytes ∧
      proof.mapM bytes32 = .ok proofBytes ∧
      MerkleBridge.MayBridge host.ch (host.env host.admin n) w.bridge w.ledger bridgerAddress
        (ApiScVal.utf8 sourceRegistry) (ApiScVal.utf8 sourceSerial) leafBytes proofBytes credit r
        id s := by
  have hcall := StellarHost.invoke_eq_ok.mp (Prod.ext h rfl)
  simp only [StellarHost.args_bind_eq_ok, StellarHost.args_pure_eq_ok, bind_eq_ok, map_eq_ok,
    Prod.exists, onBridge_eq_ok, MerkleBridge.bridgeIn_eq_ok] at hcall
  obtain ⟨bridgerAddress, -, leafBytes, hleaf, proofBytes, hproof, _, -, credit, -, id, _,
    ⟨_, _, ⟨r, s, hmay, -, -⟩, -⟩, -⟩ := hcall
  exact ⟨bridgerAddress, leafBytes, proofBytes, credit, r, id, s, hleaf, hproof, hmay⟩

/-! ## One import -/

/-- The queries of an import that left the record `row`: `checking` answered the read-only check,
`minting` the transaction, and `writing` the insertion. -/
structure ImportRun (userId wallet : String) (dto : BridgeInDto)
    (asked : List (ApiQuery × BackendState (World T))) (row : BridgeRow)
    (finding checking minting writing final : BackendState (World T)) : Prop where
  asked_eq : asked = [
    (.db (.findUser userId), finding),
    (.stellar (.verifyProof dto.leaf dto.merkleProof dto.merkleRoot), checking),
    (.stellar (.bridgeIn wallet dto.sourceRegistry dto.sourceSerial
      (dto.leaf :: dto.merkleProof) dto.merkleRoot (toOnChainMetadata dto)), minting),
    (.db (.insertBridge (some row)), writing)]
  written : final.db = writing.db.insertBridge row

/-- The proof that was checked is the proof that was submitted, and both checks compared it with
one root, which the record names. -/
structure OneRoot (host : StellarHost T) (dto : BridgeInDto) (row : BridgeRow)
    (minting : BackendState (World T)) (leaf : Bytes32) (proof : List Bytes32)
    (rootInfo : RegistryRoot) : Prop where
  leaf_eq : bytes32 dto.leaf = .ok leaf
  proof_eq : dto.merkleProof.mapM bytes32 = .ok proof
  checked : MerkleBridge.verifyProof host.ch leaf proof rootInfo.root = true
  stored : minting.chain.bridge.registryRoots (ApiScVal.utf8 dto.sourceRegistry) = some rootInfo
  minted : ∃ bridger metadata r id s,
    MerkleBridge.MayBridge host.ch (host.env host.admin minting.served) minting.chain.bridge
      minting.chain.ledger bridger (ApiScVal.utf8 dto.sourceRegistry)
      (ApiScVal.utf8 dto.sourceSerial) leaf proof metadata r id s
  named : bytes32 row.merkleRoot = .ok rootInfo.root

theorem bridgeRow_eq_some {userId : String} {dto : BridgeInDto} {receipt : BridgeReceipt}
    {row : BridgeRow} (h : bridgeRow config userId dto receipt = some row) :
    row.merkleRoot = dto.merkleRoot := by
  simp only [bridgeRow, Option.bind_eq_bind, Option.bind_eq_some_iff, Option.pure_def,
    Option.some.injEq, Mirror.textColumn_eq_some] at h
  obtain ⟨_, -, _, -, _, -, _, ⟨-, rfl⟩, _, -, rfl⟩ := h
  rfl

theorem bridgeRecord_create_eq_ok {row : Option BridgeRow} {s s' : BackendState (World T)}
    {x : Unit}
    (h : (host.api config).handle (.db (.insertBridge row)) s = (.ok x, s')) :
    ∃ record, row = some record ∧ s'.db = s.db.insertBridge record := by
  have hexec : exec (host.api config).handle (prisma.bridgeRecord.create row) s = (.ok x, s') :=
    (Program.exec_ask (ApiQuery.db (.insertBridge row)) s).trans h
  obtain ⟨record, hrow, rfl⟩ := exec_bridgeRecord_create hexec
  exact ⟨record, hrow, rfl⟩

/-- **One root.**  Let the state change in any way between the queries of `bridgeIn`.  If it
returns, the root of the record denotes the root that the contract stored for the registry when
it minted the credit, and the leaf and the proof of the read-only check are the ones it minted
for. -/
theorem bridgeIn_same_root (host : StellarHost T) (config : ApiConfig)
    (rely : BackendState (World T) → BackendState (World T) → Prop)
    (s s' : BackendState (World T)) (userId wallet : String) (dto : BridgeInDto)
    (asked : List (ApiQuery × BackendState (World T))) (out : Option BridgeRow)
    (h : Among (host.api config).handle rely (bridgeIn config userId wallet dto) s asked
      (.ok out) s') :
    ∃ row finding checking minting writing leaf proof rootInfo, out = some row ∧
      ImportRun userId wallet dto asked row finding checking minting writing s' ∧
      OneRoot host dto row minting leaf proof rootInfo := by
  obtain ⟨user, s₁, _, _, rfl, hfind, h₁⟩ := among_bind_ok h
  obtain ⟨finding, rfl, -, -⟩ := among_ask_ok (q := ApiQuery.db (.findUser userId)) hfind
  obtain ⟨_, _, _, _, rfl, hthrow, h₂⟩ := among_bind_ok h₁
  obtain ⟨-, rfl, rfl⟩ := among_throwIf_ok hthrow
  -- the read-only check, against the root of the caller
  obtain ⟨proofOk, s₂, _, _, rfl, hproof, h₃⟩ := among_bind_ok h₂
  obtain ⟨checking, rfl, -, hcheck⟩ := among_ask_ok (q := ApiQuery.stellar
    (.verifyProof dto.leaf dto.merkleProof dto.merkleRoot)) hproof
  obtain ⟨_, _, _, _, rfl, hthrow, h₄⟩ := among_bind_ok h₃
  obtain ⟨hverified, rfl, rfl⟩ := among_throwIf_ok hthrow
  -- the transaction, against the root that is stored now
  obtain ⟨receipt, s₃, _, _, rfl, hcall, h₅⟩ := among_bind_ok h₄
  obtain ⟨minting, rfl, -, hmint⟩ := among_ask_ok (q := ApiQuery.stellar (.bridgeIn wallet
    dto.sourceRegistry dto.sourceSerial (dto.leaf :: dto.merkleProof) dto.merkleRoot
    (toOnChainMetadata dto))) hcall
  obtain ⟨_, s₄, _, _, rfl, hcreate, hret⟩ := among_bind_ok h₅
  obtain ⟨writing, rfl, -, hwrite⟩ := among_ask_ok
    (q := ApiQuery.db (.insertBridge (bridgeRow config userId dto receipt))) hcreate
  cases hret
  obtain ⟨row, hrow, hdb⟩ := bridgeRecord_create_eq_ok hwrite
  have hcheckReply : (host.answer (.verifyProof dto.leaf dto.merkleProof dto.merkleRoot)
      checking.served checking.chain).1 = .ok proofOk := (Prod.mk.inj hcheck).1
  have hmintReply : (host.answer (.bridgeIn wallet dto.sourceRegistry dto.sourceSerial
      (dto.leaf :: dto.merkleProof) dto.merkleRoot (toOnChainMetadata dto)) minting.served
      minting.chain).1 = .ok receipt := (Prod.mk.inj hmint).1
  obtain ⟨leaf, proof, root, hleaf, hsiblings, hroot, hfold⟩ :=
    answer_verifyProof_eq_ok hcheckReply
  obtain ⟨bridger, leaf', proof', metadata, r, id, reg, hleaf', hsiblings', hmay⟩ :=
    answer_bridgeIn_eq_ok hmintReply
  obtain rfl := Except.ok.inj (hleaf.symm.trans hleaf')
  obtain rfl := Except.ok.inj (hsiblings.symm.trans hsiblings')
  obtain ⟨rootInfo, hstored, hcontract⟩ := hmay.proof
  -- the two checks fold the same list
  have hservice : PairTree.fold (MerkleBridge.hashPair host.ch) leaf proof = root :=
    MerkleBridge.verifyProof_eq_true.mp (by rw [← hfold]; simpa using hverified)
  have hsame : root = rootInfo.root := hservice.symm.trans hcontract
  refine ⟨row, finding, checking, minting, writing, leaf, proof, rootInfo, hrow, ⟨?_, hdb⟩,
    ⟨hleaf, hsiblings, MerkleBridge.verifyProof_eq_true.mpr hcontract, hstored,
      ⟨bridger, metadata, r, id, reg, hmay⟩, ?_⟩⟩
  · rw [← hrow]
    rfl
  · rw [bridgeRow_eq_some hrow, hroot, hsame]

end BridgeService

namespace Sample

open Program (exec)
open BridgeService (bridgeIn)

/-- The contracts as `scval.ts` describes them: a struct is the vector of its fields in the order of
the declaration, and an `Option` a vector of at most one value. -/
def vectorHost : StellarHost Balances :=
  { stellarHost with
    readMetadata := fun v => match v with
      | .vec fields => CreditMetadata.ofFields fields
      | _ => none
    readOptionU64 := fun v => match v with
      | .vec [] => some none
      | .vec [value] => value.toU64.map some
      | _ => none }

/-- The root of `pair`. -/
def publishedRoot : Bytes32 :=
  0xd6ba9329f8932c12192b37849f772104d20048f76434a3290512d9d814e4116f#256

/-- The leaf 1 of `pair`, with its proof. -/
def legacyDto : BridgeService.BridgeInDto where
  sourceRegistry := "VERRA"
  sourceSerial := "VCS-1"
  leaf := hexText (Bytes32.toBytes 1#256)
  merkleProof := [hexText (Bytes32.toBytes 2#256)]
  merkleRoot := hexText publishedRoot.toBytes
  metadata := {
    projectId := "V"
    methodology := "M"
    vintageStart := .finite 1
    vintageEnd := .finite 2
    tonnes := .finite 1000
    geography := "BR"
    serialPrefix := "S" }

/-- The contracts are set up, and the root is published. -/
def publishedWorld : World Balances :=
  Transition.run (World.apply chain) start (apiSetup ++
    [tx 0 9 (.bridge (.updateRegistryRoot (.account 0) verra publishedRoot 100))])

/-- The database has the user, and no row else. -/
def beforeImport : BackendState (World Balances) where
  db := { users := [wallet] }
  chain := publishedWorld
  calls := []
  served := 0

/-- The import succeeds. -/
theorem import_ok : ∃ row s₁, exec (vectorHost.api apiConfig).handle
    (bridgeIn apiConfig wallet wallet legacyDto) beforeImport = (.ok (some row), s₁) := by
  have hok : ((exec (vectorHost.api apiConfig).handle
      (bridgeIn apiConfig wallet wallet legacyDto) beforeImport).1.toOption.join).isSome := by
    decide +kernel
  cases himport : exec (vectorHost.api apiConfig).handle
      (bridgeIn apiConfig wallet wallet legacyDto) beforeImport with
  | mk answer s₁ =>
      rw [himport] at hok
      cases answer with
      | error e => cases hok
      | ok out =>
          cases out with
          | none => cases hok
          | some row => exact ⟨row, s₁, rfl⟩

end Sample

namespace BridgeService

open Program (Among exec)

open Sample in
/-- The import of the leaf 1 of `pair`. -/
theorem bridgeIn_same_root_sample :
    ∃ row minting leaf proof rootInfo,
      (∃ s₁, exec (vectorHost.api apiConfig).handle
        (bridgeIn apiConfig wallet wallet legacyDto) beforeImport = (.ok (some row), s₁)) ∧
      OneRoot vectorHost legacyDto row minting leaf proof rootInfo := by
  obtain ⟨row, s₁, himport⟩ := import_ok
  have halone : ∃ asked, Among (vectorHost.api apiConfig).handle (fun _ _ => True)
      (bridgeIn apiConfig wallet wallet legacyDto) beforeImport asked
      (exec (vectorHost.api apiConfig).handle
        (bridgeIn apiConfig wallet wallet legacyDto) beforeImport).1
      (exec (vectorHost.api apiConfig).handle
        (bridgeIn apiConfig wallet wallet legacyDto) beforeImport).2 :=
    Program.among_of_exec (fun _ => trivial) _ _
  obtain ⟨asked, hamong⟩ := halone
  rw [himport] at hamong
  obtain ⟨row', _, _, minting, _, leaf, proof, rootInfo, hrow, -, hroot⟩ :=
    bridgeIn_same_root vectorHost apiConfig (fun _ _ => True) beforeImport s₁ wallet wallet
      legacyDto asked (some row) hamong
  obtain rfl := Option.some.inj hrow
  exact ⟨row, minting, leaf, proof, rootInfo, ⟨s₁, himport⟩, hroot⟩

end BridgeService

end CarbonVeritas
