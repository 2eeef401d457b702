/-
# The certificates service

`api/src/certificates/certificates.service.ts`: `enqueueBatch` generates the certificates of
retired credits, and `verify` compares the hash of one with the record of the tracker.

The tracker returns a record as a map, of which `getCertificateHash` reads the entries as if they
were the record: it throws, or finds nothing (`getCertificateHash_eq_ok`).  No certificate is
ever found valid (`certificates_never_valid`).
-/
import CarbonVeritas.RetirementMirror

namespace CarbonVeritas

/-- The status of an item of a batch. -/
inductive BatchItemStatus where
  | existing
  | generated
  deriving DecidableEq

structure BatchItem where
  creditId : ℤ
  status : BatchItemStatus
  certificateId : ℕ
  certificateHash : Option String := none

structure BatchResult where
  total : ℕ
  generated : ℕ
  existing : ℕ
  results : List BatchItem

/-- The retirement that `verify` returns. -/
structure VerifiedRetirement where
  creditId : ℤ
  projectId : String
  tonnesRetired : ℚ
  beneficiary : String
  timestamp : ℤ
  txHash : String

/-- What `verify` returns; of the certificate, its id and its owner. -/
structure Verification where
  valid : Bool
  message : String
  certificate : Option (ℕ × String) := none
  retirement : Option VerifiedRetirement := none

namespace CertificatesService

open Program (exec orThrow throwIf)
open ApiService

/-- What the hashes are made with: number formatting and `crypto.createHash('sha256')`. -/
structure CertificateHost where
  engine : JsEngine
  sha256 : List UInt8 → Bytes32

section Service

variable (hasher : CertificateHost)

def generateCertificateHash (creditId : ℤ) (credit : CreditRow) (retirement : RetirementRow) :
    String :=
  let number (q : ℚ) := JsValue.numberText hasher.engine (.finite q)
  let payload := number creditId ++ ":" ++ credit.projectId ++ ":" ++ number credit.tonnes ++ ":" ++
    retirement.beneficiary ++ ":" ++ retirement.reason ++ ":" ++ number retirement.timestamp
  hexText (hasher.sha256 (ApiScVal.utf8 payload)).toBytes

/-- One turn of the loop of `enqueueBatch`, for a credit with the user's latest retirement. -/
def enqueueCredit (userId : String) (creditId : ℤ) (credit : CreditRow) :
    Option (ℕ × RetirementRow) → ApiProgram (List BatchItem)
  | none => .ret []
  | some (place, retirement) => do
      let certificateHash := generateCertificateHash hasher creditId credit retirement
      match ← prisma.certificate.findFirst certificateHash with
      | some (id, _) => return [{ creditId, status := .existing, certificateId := id }]
      | none =>
          let id ← prisma.certificate.create {
            user := userId, creditId, txHash := retirement.txHash, credit, retirement,
            certificateHash }
          prisma.retirement.update place certificateHash
          return [{ creditId, status := .generated, certificateId := id
                    certificateHash := some certificateHash }]

/-- The loop of `enqueueBatch`. -/
def enqueueCredits (userId : String) :
    List (ℤ × CreditRow × Option (ℕ × RetirementRow)) → ApiProgram (List BatchItem)
  | [] => .ret []
  | (creditId, credit, latest) :: credits => do
      let items ← enqueueCredit hasher userId creditId credit latest
      let rest ← enqueueCredits userId credits
      return items ++ rest

def enqueueBatch (userId : String) (creditIds : List JsNumber) : ApiProgram BatchResult := do
  let ids ← orThrow (creditIds.mapM Mirror.intColumn) (.database .invalidValue)
  let credits ← prisma.credit.findRetired ids userId
  throwIf (credits.length = 0) (.badRequest "No eligible retired credits found")
  let results ← enqueueCredits hasher userId credits
  return {
    total := credits.length
    generated := results.countP fun r => r.status = .generated
    existing := results.countP fun r => r.status = .existing
    results }

def verify (certificateHash : String) : ApiProgram Verification := do
  match ← prisma.certificate.findFirst certificateHash with
  | none => return { valid := false, message := "Certificate not found in registry" }
  | some (id, certificate) =>
      match ← prisma.retirement.findFirst certificateHash with
      | none =>
          return {
            valid := false
            message := "No matching retirement record found for certificate" }
      | some (_, retirement, credit) => do
          let onChainHash ← stellar.getCertificateHash (.finite retirement.creditId)
          let valid := onChainHash = certificateHash
          return {
            valid
            message := if valid then "Certificate verified successfully on-chain"
              else "Certificate hash does not match on-chain record"
            certificate := some (id, certificate.user)
            retirement := some {
              creditId := retirement.creditId
              projectId := credit.projectId
              tonnesRetired := retirement.tonnesRetired
              beneficiary := retirement.beneficiary
              timestamp := retirement.timestamp
              txHash := retirement.txHash } }

end Service

/-! ## What each query answers -/

section Answers

variable {σ : Type} {host : ApiHost σ} {s : BackendState σ}

/-- A search for a certificate reads the first row with the hash. -/
theorem exec_certificate_findFirst (certificateHash : String) :
    exec host.handle (prisma.certificate.findFirst certificateHash) s =
      (.ok (ApiDb.findFirst s.db.certificates fun _ row => row.certificateHash = certificateHash),
        s.tick) :=
  Program.exec_ask (ApiQuery.db (.findCertificate certificateHash)) s

/-- A new certificate gets the next place. -/
theorem exec_certificate_create (row : CertificateRow) :
    exec host.handle (prisma.certificate.create row) s =
      (.ok s.db.certificates.length, s.store (s.db.insertCertificate row)) :=
  Program.exec_ask (ApiQuery.db (.insertCertificate row)) s

/-- The hash is written to the retirement. -/
theorem exec_retirement_update (place : ℕ) (certificateHash : String) :
    exec host.handle (prisma.retirement.update place certificateHash) s =
      (.ok (), s.store (s.db.writeCertificateHash place certificateHash)) :=
  Program.exec_ask (ApiQuery.db (.updateRetirementHash place certificateHash)) s

/-- The hash on chain is read from the deployment. -/
theorem exec_getCertificateHash (creditId : JsNumber) :
    exec host.handle (stellar.getCertificateHash creditId) s =
      ((host.stellar (.getCertificateHash creditId) s.served s.chain).1,
        s.called (.getCertificateHash creditId)
          (host.stellar (.getCertificateHash creditId) s.served s.chain).2) :=
  Program.exec_ask (ApiQuery.stellar (.getCertificateHash creditId)) s

end Answers

/-! ## The hash on chain -/

section Chain

variable {T : Type} (host : StellarHost T)

/-- The entries of a record are read as if the first of them were the record. -/
theorem certificateHash_record (record : RetirementRecord) :
    host.certificateHash record.toScVal = .error .sdk := rfl

/-- Void is read as the empty hash. -/
theorem certificateHash_void : host.certificateHash .void = .ok "" := rfl

/-- `getCertificateHash` throws or finds no hash. -/
theorem getCertificateHash_eq_ok {creditId : JsNumber} {n : ℕ} {w : World T}
    {certificateHash : String}
    (h : (host.answer (.getCertificateHash creditId) n w).1 = .ok certificateHash) :
    certificateHash = "" := by
  obtain ⟨id, -, hcall⟩ :=
    StellarHost.args_bind_eq_ok.mp (StellarHost.invoke_eq_ok.mp (Prod.ext h rfl))
  obtain ⟨hash, hhash, hret⟩ := StellarHost.args_bind_eq_ok.mp hcall
  obtain rfl : hash = certificateHash :=
    congrArg Prod.fst (Except.ok.inj (StellarHost.args_pure_eq_ok.mp hret))
  cases hrecord : w.tracker.getRetirementRecord id with
  | none =>
      rw [hrecord, ScVal.ofOption, certificateHash_void] at hhash
      exact (Except.ok.inj hhash).symm
  | some record =>
      rw [hrecord, ScVal.ofOption, certificateHash_record] at hhash
      cases hhash

end Chain

/-! ## Verification -/

section Verify

variable {T : Type} {host : StellarHost T} {config : ApiConfig} {s : BackendState (World T)}

/-- A call of `verify` finds the certificate valid. -/
def FoundValid (host : StellarHost T) (config : ApiConfig) (s : BackendState (World T))
    (certificateHash : String) : Prop :=
  ∃ v s', exec (host.api config).handle (verify certificateHash) s = (.ok v, s') ∧ v.valid = true

/-- No hash but the empty one is found on chain. -/
theorem not_foundValid {certificateHash : String} (hne : certificateHash ≠ "") :
    ¬ FoundValid host config s certificateHash := by
  rintro ⟨v, s', hexec, hvalid⟩
  obtain ⟨certificate, s₁, -, hcertificate⟩ := Program.exec_bind_eq_ok.mp hexec
  cases certificate with
  | none =>
      cases hcertificate
      cases hvalid
  | some found =>
      obtain ⟨retirement, s₂, -, hretirement⟩ := Program.exec_bind_eq_ok.mp hcertificate
      cases retirement with
      | none =>
          cases hretirement
          cases hvalid
      | some found' =>
          obtain ⟨onChainHash, s₃, hquery, hret⟩ := Program.exec_bind_eq_ok.mp hretirement
          cases hret
          have hsame : onChainHash = certificateHash := of_decide_eq_true hvalid
          rw [exec_getCertificateHash] at hquery
          have hempty := getCertificateHash_eq_ok host (congrArg Prod.fst hquery)
          exact hne (hsame.symm.trans hempty)

end Verify

/-! ## Generation -/

section Generate

variable {σ : Type} {host : ApiHost σ} {s s' : BackendState σ} {hasher : CertificateHost}
  {user : String} {items : List BatchItem}

/-- A hash that is generated is not empty. -/
theorem generateCertificateHash_ne_empty (hasher : CertificateHost) (creditId : ℤ)
    (credit : CreditRow) (retirement : RetirementRow) :
    generateCertificateHash hasher creditId credit retirement ≠ "" :=
  hexText_ne_empty (by simp [Bytes32.toBytes])

/-- Every item names a certificate with a hash. -/
def Certified (certificates : List CertificateRow) (items : List BatchItem) : Prop :=
  ∀ item ∈ items, ∃ row, certificates[item.certificateId]? = some row ∧ row.certificateHash ≠ ""

/-- Further certificates leave what is certified. -/
theorem Certified.of_prefix {certificates certificates' : List CertificateRow}
    (h : Certified certificates items) (hrows : certificates <+: certificates') :
    Certified certificates' items := by
  intro item hitem
  obtain ⟨row, hrow, hhash⟩ := h item hitem
  obtain ⟨more, rfl⟩ := hrows
  have hlt : item.certificateId < certificates.length := (List.getElem?_eq_some_iff.mp hrow).1
  exact ⟨row, (List.getElem?_append_left hlt).trans hrow, hhash⟩

/-- A turn of the loop finds the certificate of the credit or adds it. -/
theorem enqueueCredit_certified {creditId : ℤ} {credit : CreditRow}
    {latest : Option (ℕ × RetirementRow)}
    (h : exec host.handle (enqueueCredit hasher user creditId credit latest) s = (.ok items, s')) :
    Certified s'.db.certificates items ∧ s.db.certificates <+: s'.db.certificates := by
  rcases latest with _ | ⟨place, retirement⟩
  · cases h
    exact ⟨nofun, List.prefix_rfl⟩
  · obtain ⟨found, s₁, hfind, hrest⟩ := Program.exec_bind_eq_ok.mp h
    rw [exec_certificate_findFirst] at hfind
    obtain ⟨hfound, rfl⟩ := Prod.mk.inj hfind
    have hne := generateCertificateHash_ne_empty hasher creditId credit retirement
    cases found with
    -- a certificate that exists is reported as it is
    | some existing =>
        obtain ⟨id, row⟩ := existing
        cases hrest
        obtain ⟨hrow, hhash⟩ := findFirst_eq_some (Except.ok.inj hfound)
        refine ⟨fun item hitem => ⟨row, ?_, ?_⟩, List.prefix_rfl⟩
        · rw [List.mem_singleton.mp hitem]
          exact hrow
        · rw [of_decide_eq_true hhash]
          exact hne
    | none =>
        -- a new row is appended, and the retirement gets its hash
        obtain ⟨id, s₂, hcreate, hupdate⟩ := Program.exec_bind_eq_ok.mp hrest
        rw [exec_certificate_create] at hcreate
        cases hcreate
        obtain ⟨_, s₃, hwrite, hret⟩ := Program.exec_bind_eq_ok.mp hupdate
        rw [exec_retirement_update] at hwrite
        cases hwrite
        cases hret
        refine ⟨fun item hitem => ?_, List.prefix_append _ _⟩
        rw [List.mem_singleton.mp hitem]
        exact ⟨_, List.getElem?_concat_length, hne⟩

/-- A batch is certified, and keeps the certificates before it. -/
theorem enqueueCredits_certified {credits : List (ℤ × CreditRow × Option (ℕ × RetirementRow))}
    (h : exec host.handle (enqueueCredits hasher user credits) s = (.ok items, s')) :
    Certified s'.db.certificates items ∧ s.db.certificates <+: s'.db.certificates := by
  induction credits generalizing s items with
  | nil =>
      cases h
      exact ⟨nofun, List.prefix_rfl⟩
  | cons credit credits ih =>
      obtain ⟨creditId, credit, latest⟩ := credit
      obtain ⟨first, s₁, hfirst, hnext⟩ := Program.exec_bind_eq_ok.mp h
      obtain ⟨rest, s₂, hrest, hret⟩ := Program.exec_bind_eq_ok.mp hnext
      cases hret
      obtain ⟨hcertified, hrows⟩ := enqueueCredit_certified hfirst
      obtain ⟨hcertified', hrows'⟩ := ih hrest
      refine ⟨fun item hitem => ?_, hrows.trans hrows'⟩
      rcases List.mem_append.mp hitem with hitem | hitem
      · exact hcertified.of_prefix hrows' item hitem
      · exact hcertified' item hitem

end Generate

/-- The hash of a certificate that a batch reports as generated or existing. -/
def Reported (db : ApiDb) (out : BatchResult) (certificateHash : String) : Prop :=
  ∃ item ∈ out.results, (db.certificates[item.certificateId]?).map CertificateRow.certificateHash =
    some certificateHash

/-- No hash that is reported is empty. -/
theorem reported_ne_empty {σ : Type} {host : ApiHost σ} {hasher : CertificateHost}
    {s s' : BackendState σ} {user : String} {creditIds : List JsNumber} {out : BatchResult}
    {certificateHash : String}
    (h : exec host.handle (enqueueBatch hasher user creditIds) s = (.ok out, s'))
    (hreported : Reported s'.db out certificateHash) : certificateHash ≠ "" := by
  obtain ⟨ids, s₁, -, hids⟩ := Program.exec_bind_eq_ok.mp h
  obtain ⟨credits, s₂, -, hcredits⟩ := Program.exec_bind_eq_ok.mp hids
  obtain ⟨_, s₃, -, hloop⟩ := Program.exec_bind_eq_ok.mp hcredits
  obtain ⟨items, s₄, hitems, hret⟩ := Program.exec_bind_eq_ok.mp hloop
  cases hret
  obtain ⟨item, hitem, hhash⟩ := hreported
  obtain ⟨row, hrow, hne⟩ := (enqueueCredits_certified hitems).1 item hitem
  rw [hrow] at hhash
  rw [← Option.some.inj hhash]
  exact hne

/-- **Certificates.**  A certificate that a batch reports is found valid at no time. -/
theorem certificates_never_valid {T : Type} (host : StellarHost T) (config : ApiConfig)
    (hasher : CertificateHost) (s s' : BackendState (World T)) (user : String)
    (creditIds : List JsNumber) (out : BatchResult)
    (henqueue : exec (host.api config).handle (enqueueBatch hasher user creditIds) s =
      (.ok out, s'))
    (certificateHash : String) (hreported : Reported s'.db out certificateHash)
    (later : BackendState (World T)) : ¬ FoundValid host config later certificateHash :=
  not_foundValid (reported_ne_empty henqueue hreported)

end CertificatesService

namespace Sample

open Program (exec)
open CertificatesService

/-- SHA-256 on the payload of the sample. -/
def certificateHost : CertificateHost where
  engine := asciiEngine
  sha256 payload :=
    if payload = ApiScVal.utf8 "1:V:1000:B:Offset:20003" then
      0x5f15ab7ec2d52cb18b266a31ab3fdb1d26726b4f41a94fe994a67ef8897fbbb7#256
    else 0#256

/-- Account 0 has retired its credit. -/
def retired : BackendState (World Balances) :=
  Transition.run (RetirementService.serve (stellarHost.api apiConfig))
    (backend .active activeWorld) [⟨wallet, .finite 1, wholeDto⟩]

def retiredHash : String :=
  "5f15ab7ec2d52cb18b266a31ab3fdb1d26726b4f41a94fe994a67ef8897fbbb7"

/-- A batch generates the certificate of the retired credit. -/
theorem batch_reports : ∃ out s', exec (stellarHost.api apiConfig).handle
    (enqueueBatch certificateHost wallet [.finite 1]) retired = (.ok out, s') ∧
      Reported s'.db out retiredHash := by
  have hreports : (match exec (stellarHost.api apiConfig).handle
        (enqueueBatch certificateHost wallet [.finite 1]) retired with
      | (.ok out, s') => out.results.any fun item =>
          (s'.db.certificates[item.certificateId]?).map CertificateRow.certificateHash =
            some retiredHash
      | (.error _, _) => false) = true := by decide +kernel
  split at hreports
  · rename_i out s' henqueue
    obtain ⟨item, hitem, hhash⟩ := List.any_eq_true.mp hreports
    exact ⟨out, s', henqueue, item, hitem, of_decide_eq_true hhash⟩
  · cases hreports

end Sample

namespace CertificatesService

open Program (exec)

open Sample in
/-- The certificate of the retired credit is not found valid. -/
theorem certificates_never_valid_sample : ∃ out s', exec (stellarHost.api apiConfig).handle
    (enqueueBatch certificateHost wallet [.finite 1]) retired = (.ok out, s') ∧
      ¬ FoundValid stellarHost apiConfig s' retiredHash := by
  obtain ⟨out, s', henqueue, hreported⟩ := batch_reports
  exact ⟨out, s', henqueue, certificates_never_valid stellarHost apiConfig certificateHost retired
    s' wallet [.finite 1] out henqueue retiredHash hreported s'⟩

open Sample in
/-- The certificate of a retired credit is generated, and not found valid at once. -/
theorem not_certificates_valid :
    ¬ ∀ (T : Type) (host : StellarHost T) (config : ApiConfig) (hasher : CertificateHost)
      (s : BackendState (World T)) (requests : List RetirementService.RetireRequest)
      (user : String) (creditIds : List JsNumber) (out : BatchResult)
      (s' : BackendState (World T)),
      exec (host.api config).handle (enqueueBatch hasher user creditIds)
        (Transition.run (RetirementService.serve (host.api config)) s requests) = (.ok out, s') →
      ∀ certificateHash, Reported s'.db out certificateHash →
        FoundValid host config s' certificateHash := by
  intro h
  obtain ⟨out, s', henqueue, hreported⟩ := batch_reports
  have hvalid := h _ stellarHost apiConfig certificateHost (backend .active activeWorld)
    [⟨wallet, .finite 1, wholeDto⟩] wallet [.finite 1] out s' henqueue retiredHash hreported
  exact not_foundValid (by decide) hvalid

end CertificatesService

end CarbonVeritas
