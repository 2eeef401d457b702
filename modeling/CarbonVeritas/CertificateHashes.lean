/-
# What a certificate hash identifies

`generateCertificateHash` hashes six values joined with colons, of which three are free texts.
The parts between the colons determine the payload (`payload_eq_iff`), so that a retirement is
identified by its hash exactly if its beneficiary and its reason have no colon and no later part
of its project id reads as a number (`identifies_iff`).
-/
import CarbonVeritas.CertificatesService
import CarbonVeritas.SeparatedFields
import Mathlib

/-- A number that a double holds. -/
def JsNumber.IsDouble (q : ℚ) : Prop := JsNumber.roundDouble q = .finite q

namespace CarbonVeritas

open JsNumber (IsDouble)

/-! ## The texts of numbers -/

/-- A double whose text the engine makes up. -/
def Printed (q : ℚ) : Prop := IsDouble q ∧ ¬ (q.den = 1 ∧ q.num.natAbs ≤ 2 ^ 53)

/-- The text of a number has digits, a sign, a point and an exponent, and reads as that number. -/
structure PrintsDoubles (engine : JsEngine) : Prop where
  distinct : ∀ p q, Printed p → Printed q → engine.printDouble p = engine.printDouble q → p = q
  not_integer : ∀ q, Printed q → ∀ z : ℤ, z.natAbs ≤ 2 ^ 53 → engine.printDouble q ≠ toString z
  no_colon : ∀ q, Printed q → ':' ∉ (engine.printDouble q).toList

section NumberTexts

variable {engine : JsEngine} {p q : ℚ}

/-- The text of an integer is its digits, behind a sign if it is negative. -/
theorem toList_toString_int (z : ℤ) :
    (toString z).toList = (if 0 ≤ z then [] else ['-']) ++ Nat.toDigits 10 z.natAbs := by
  cases z with
  | ofNat n => exact Nat.toList_repr
  | negSucc n =>
      show ("-" ++ Nat.repr (n + 1)).toList = _
      rw [String.toList_append, Nat.toList_repr]
      rfl

/-- The text of an integer has digits and a sign. -/
theorem notMem_toString_int {c : Char} (hdigit : c.isDigit = false) (hsign : c ≠ '-') (z : ℤ) :
    c ∉ (toString z).toList := by
  rw [toList_toString_int, List.mem_append]
  rintro (hmem | hmem)
  · split_ifs at hmem
    · cases hmem
    · exact hsign (List.mem_singleton.mp hmem)
  · rw [Nat.isDigit_of_mem_toDigits (by decide) (by decide) hmem] at hdigit
    cases hdigit

/-- A double is an integer that is written out, or is printed. -/
theorem numberText_cases (engine : JsEngine) (hq : IsDouble q) :
    (∃ z : ℤ, q = z ∧ z.natAbs ≤ 2 ^ 53 ∧
      JsValue.numberText engine (.finite q) = toString z) ∨
    Printed q ∧ JsValue.numberText engine (.finite q) = engine.printDouble q := by
  by_cases hint : q.den = 1 ∧ q.num.natAbs ≤ 2 ^ 53
  · exact Or.inl ⟨q.num, (Rat.coe_int_num_of_den_eq_one hint.1).symm, hint.2, if_pos hint⟩
  · exact Or.inr ⟨⟨hq, hint⟩, if_neg hint⟩

/-- The text of a number has no colon. -/
theorem colon_notMem_numberText (hengine : PrintsDoubles engine) (hq : IsDouble q) :
    ':' ∉ (JsValue.numberText engine (.finite q)).toList := by
  rcases numberText_cases engine hq with ⟨z, -, -, htext⟩ | ⟨hprinted, htext⟩
  · rw [htext]
    exact notMem_toString_int (by decide) (by decide) z
  · rw [htext]
    exact hengine.no_colon q hprinted

/-- Distinct doubles have distinct texts. -/
theorem numberText_inj (hengine : PrintsDoubles engine) (hp : IsDouble p) (hq : IsDouble q)
    (h : JsValue.numberText engine (.finite p) = JsValue.numberText engine (.finite q)) :
    p = q := by
  rcases numberText_cases engine hp with ⟨z, rfl, hz, hleft⟩ | ⟨hprinted, hleft⟩ <;>
    rcases numberText_cases engine hq with ⟨w, rfl, hw, hright⟩ | ⟨hprinted', hright⟩
  · rw [hleft, hright] at h
    rw [Int.repr_injective h]
  · exact absurd (hright.symm.trans (h.symm.trans hleft)) (hengine.not_integer q hprinted' z hz)
  · exact absurd (hleft.symm.trans (h.trans hright)) (hengine.not_integer p hprinted w hw)
  · rw [hleft, hright] at h
    exact hengine.distinct p q hprinted hprinted' h

end NumberTexts

/-! ## The texts of hashes -/

/-- A hexadecimal digit has one value. -/
theorem hexDigit_inj {m n : ℕ} (hm : m < 16) (hn : n < 16) (h : hexDigit m = hexDigit n) :
    m = n := by
  have hall : ∀ i j : Fin 16, hexDigit i = hexDigit j → i = j := by decide
  exact congrArg Fin.val (hall ⟨m, hm⟩ ⟨n, hn⟩ h)

/-- Bytes are known by their hexadecimal text. -/
theorem hexText_inj {bytes bytes' : List UInt8} (h : hexText bytes = hexText bytes') :
    bytes = bytes' := by
  have hdigits := String.ofList_injective h
  clear h
  induction bytes generalizing bytes' with
  | nil =>
      cases bytes' with
      | nil => rfl
      | cons b' bs' => cases hdigits
  | cons b bs ih =>
      cases bytes' with
      | nil => cases hdigits
      | cons b' bs' =>
          simp only [List.flatMap_cons, List.cons_append, List.nil_append, List.cons.injEq]
            at hdigits
          obtain ⟨hhigh, hlow, hrest⟩ := hdigits
          have hb := b.toNat_lt
          have hb' := b'.toNat_lt
          have hhigh := hexDigit_inj (by omega) (by omega) hhigh
          have hlow := hexDigit_inj (by omega) (by omega) hlow
          have hsame : b = b' := UInt8.toNat_inj.mp (by omega)
          rw [hsame, ih hrest]

/-- Thirty-two bytes are known by their list. -/
theorem Bytes32.toBytes_inj {a b : Bytes32} (h : a.toBytes = b.toBytes) : a = b := by
  have hofBytes := congrArg Bytes32.ofBytes h
  rw [Bytes32.ofBytes_toBytes, Bytes32.ofBytes_toBytes] at hofBytes
  exact Option.some.inj hofBytes

/-- A text is known by its UTF-8 bytes. -/
theorem ApiScVal.utf8_inj {s t : String} (h : ApiScVal.utf8 s = ApiScVal.utf8 t) : s = t :=
  String.toByteArray_inj.mp (ByteArray.ext (Array.toList_inj.mp h))

/-! ## Payloads -/

/-- A retirement with its credit. -/
structure RetiredCredit where
  creditId : ℤ
  credit : CreditRow
  retirement : RetirementRow

namespace RetiredCredit

/-- The numbers that are hashed are doubles, as every number of the database is. -/
def Doubles (x : RetiredCredit) : Prop :=
  IsDouble x.creditId ∧ IsDouble x.credit.tonnes ∧ IsDouble x.retirement.timestamp

/-- The values that are hashed agree. -/
structure SameValues (x y : RetiredCredit) : Prop where
  creditId : x.creditId = y.creditId
  projectId : x.credit.projectId = y.credit.projectId
  tonnes : x.credit.tonnes = y.credit.tonnes
  beneficiary : x.retirement.beneficiary = y.retirement.beneficiary
  reason : x.retirement.reason = y.retirement.reason
  timestamp : x.retirement.timestamp = y.retirement.timestamp

/-- The text that is hashed. -/
def payload (engine : JsEngine) (x : RetiredCredit) : String :=
  let number (q : ℚ) := JsValue.numberText engine (.finite q)
  number x.creditId ++ ":" ++ x.credit.projectId ++ ":" ++ number x.credit.tonnes ++ ":" ++
    x.retirement.beneficiary ++ ":" ++ x.retirement.reason ++ ":" ++
    number x.retirement.timestamp

/-- The text of a number. -/
def digits (engine : JsEngine) (q : ℚ) : List Char :=
  (JsValue.numberText engine (.finite q)).toList

/-- The parts between the colons of a text. -/
def parts (text : String) : List (List Char) := text.toList.splitOn ':'

/-- The parts between the first and the last colon of the payload. -/
def middle (engine : JsEngine) (x : RetiredCredit) : List (List Char) :=
  SeparatedFields.layout (parts x.credit.projectId) (digits engine x.credit.tonnes)
    (parts x.retirement.beneficiary) (parts x.retirement.reason)

section Payloads

variable {engine : JsEngine} {x y : RetiredCredit}

/-- Every text has a part. -/
theorem parts_ne_nil (text : String) : parts text ≠ [] := List.splitOn_ne_nil _ _

/-- A text is known by its parts. -/
theorem parts_inj {s t : String} (h : parts s = parts t) : s = t :=
  String.toList_inj.mp (SeparatedFields.splitOn_inj h)

/-- A text without a colon is its only part. -/
theorem length_parts_eq_one_iff {text : String} : (parts text).length = 1 ↔ ':' ∉ text.toList :=
  SeparatedFields.length_splitOn_eq_one_iff

/-- The text of the parts. -/
theorem parts_ofList_intercalate {ps : List (List Char)} (hne : ps ≠ [])
    (hps : ∀ p ∈ ps, ':' ∉ p) : parts (String.ofList ([':'].intercalate ps)) = ps := by
  unfold parts
  rw [String.toList_ofList]
  exact List.splitOn_intercalate ':' hps hne

/-- The payload is six texts with colons between them. -/
theorem payload_toList (engine : JsEngine) (x : RetiredCredit) :
    (payload engine x).toList = [':'].intercalate [digits engine x.creditId,
      x.credit.projectId.toList, digits engine x.credit.tonnes, x.retirement.beneficiary.toList,
      x.retirement.reason.toList, digits engine x.retirement.timestamp] := by
  simp [payload, digits, String.toList_append, List.intercalate_cons_cons]

/-- The text of a number is one part. -/
theorem splitOn_digits (hengine : PrintsDoubles engine) {q : ℚ} (hq : IsDouble q) :
    (digits engine q).splitOn ':' = [digits engine q] :=
  List.splitOn_eq_singleton (colon_notMem_numberText hengine hq)

/-- The parts between the colons of a payload. -/
theorem parts_payload (hengine : PrintsDoubles engine) (hx : x.Doubles) :
    parts (payload engine x) =
      digits engine x.creditId :: middle engine x ++ [digits engine x.retirement.timestamp] := by
  obtain ⟨hid, htonnes, htime⟩ := hx
  unfold parts
  rw [payload_toList, SeparatedFields.splitOn_intercalate_eq_flatMap (List.cons_ne_nil _ _)]
  simp only [List.flatMap_cons, List.flatMap_nil, splitOn_digits hengine hid,
    splitOn_digits hengine htonnes, splitOn_digits hengine htime]
  simp [middle, parts, SeparatedFields.layout]

/-- A payload determines its ends and the parts between them. -/
theorem payload_eq_iff (hengine : PrintsDoubles engine) (hx : x.Doubles) (hy : y.Doubles) :
    payload engine x = payload engine y ↔ x.creditId = y.creditId ∧
      middle engine x = middle engine y ∧ x.retirement.timestamp = y.retirement.timestamp := by
  have hparts : payload engine x = payload engine y ↔
      parts (payload engine x) = parts (payload engine y) :=
    ⟨congrArg parts, parts_inj⟩
  rw [hparts, parts_payload hengine hx, parts_payload hengine hy]
  constructor
  · intro h
    obtain ⟨hid, hrest⟩ := List.cons.inj h
    obtain ⟨hmiddle, htime⟩ := List.append_inj' hrest rfl
    refine ⟨?_, hmiddle, ?_⟩
    · exact_mod_cast numberText_inj hengine hx.1 hy.1 (String.toList_inj.mp hid)
    · exact_mod_cast numberText_inj hengine hx.2.2 hy.2.2
        (String.toList_inj.mp (List.cons.inj htime).1)
  · rintro ⟨hid, hmiddle, htime⟩
    rw [hid, hmiddle, htime]

end Payloads

/-! ## Identification -/

open CertificatesService (CertificateHost generateCertificateHash)

def certificateHash (hasher : CertificateHost) (x : RetiredCredit) : String :=
  generateCertificateHash hasher x.creditId x.credit x.retirement

/-- `sha256` has no collision on the payloads of the two. -/
def CollisionFree (hasher : CertificateHost) (x y : RetiredCredit) : Prop :=
  hasher.sha256 (ApiScVal.utf8 (payload hasher.engine x)) =
      hasher.sha256 (ApiScVal.utf8 (payload hasher.engine y)) →
    ApiScVal.utf8 (payload hasher.engine x) = ApiScVal.utf8 (payload hasher.engine y)

/-- The hash tells the retirement from all with other values. -/
def Identifies (hasher : CertificateHost) (x : RetiredCredit) : Prop :=
  ∀ y : RetiredCredit, y.Doubles → CollisionFree hasher x y →
    x.certificateHash hasher = y.certificateHash hasher → SameValues x y

/-- The beneficiary and the reason have no colon, and no part of the project id after its first
colon is the text of a number. -/
structure Unambiguous (engine : JsEngine) (x : RetiredCredit) : Prop where
  beneficiary : ':' ∉ x.retirement.beneficiary.toList
  reason : ':' ∉ x.retirement.reason.toList
  projectId : ∀ part ∈ (x.credit.projectId.toList.splitOn ':').tail, ∀ q, IsDouble q →
    part ≠ (JsValue.numberText engine (.finite q)).toList

section Identification

variable {hasher : CertificateHost} {x y : RetiredCredit}

/-- Equal payloads have equal hashes. -/
theorem certificateHash_of_payload
    (h : payload hasher.engine x = payload hasher.engine y) :
    x.certificateHash hasher = y.certificateHash hasher := by
  show hexText (hasher.sha256 (ApiScVal.utf8 (payload hasher.engine x))).toBytes =
    hexText (hasher.sha256 (ApiScVal.utf8 (payload hasher.engine y))).toBytes
  rw [h]

/-- Without a collision, equal hashes mean equal payloads. -/
theorem payload_of_certificateHash (hfree : CollisionFree hasher x y)
    (h : x.certificateHash hasher = y.certificateHash hasher) :
    payload hasher.engine x = payload hasher.engine y :=
  ApiScVal.utf8_inj (hfree (Bytes32.toBytes_inj (hexText_inj h)))

/-- The text of a tonnage. -/
def TonnageText (engine : JsEngine) (part : List Char) : Prop :=
  ∃ q, IsDouble q ∧ part = digits engine q

/-- The condition, read off the parts of the texts. -/
theorem unambiguous_iff {engine : JsEngine} :
    Unambiguous engine x ↔ (parts x.retirement.beneficiary).length = 1 ∧
      (parts x.retirement.reason).length = 1 ∧
      ∀ part ∈ (parts x.credit.projectId).tail, ¬ TonnageText engine part := by
  rw [length_parts_eq_one_iff, length_parts_eq_one_iff]
  constructor
  · intro h
    exact ⟨h.beneficiary, h.reason, fun part hpart ⟨q, hq, htext⟩ =>
      h.projectId part hpart q hq htext⟩
  · rintro ⟨hbeneficiary, hreason, hproject⟩
    exact ⟨hbeneficiary, hreason, fun part hpart q hq htext =>
      hproject part hpart ⟨q, hq, htext⟩⟩

/-- Retirements with one payload agree if one of them is unambiguous. -/
theorem Unambiguous.sameValues (hengine : PrintsDoubles hasher.engine) (hx : x.Doubles)
    (hy : y.Doubles) (h : Unambiguous hasher.engine x)
    (hpayload : payload hasher.engine x = payload hasher.engine y) : SameValues x y := by
  obtain ⟨hid, hmiddle, htime⟩ := (payload_eq_iff hengine hx hy).mp hpayload
  obtain ⟨hbeneficiary, hreason, hproject⟩ := unambiguous_iff.mp h
  obtain ⟨hP, htonnes, hB, hR⟩ := SeparatedFields.layout_inj hbeneficiary hreason hproject
    (parts_ne_nil _) (parts_ne_nil _) (parts_ne_nil _) ⟨_, hy.2.1, rfl⟩ hmiddle
  exact {
    creditId := hid
    projectId := parts_inj hP
    tonnes := numberText_inj hengine hx.2.1 hy.2.1 (String.toList_inj.mp htonnes)
    beneficiary := parts_inj hB
    reason := parts_inj hR
    timestamp := htime }

/-- No part of a payload has a colon. -/
theorem colon_notMem_of_mem_middle {engine : JsEngine} (hengine : PrintsDoubles engine)
    (hx : x.Doubles) {part : List Char} (h : part ∈ middle engine x) : ':' ∉ part := by
  unfold middle SeparatedFields.layout at h
  rw [List.mem_append, List.mem_cons, List.mem_append] at h
  rcases h with h | rfl | h | h
  · exact SeparatedFields.notMem_of_mem_splitOn h
  · exact colon_notMem_numberText hengine hx.2.1
  · exact SeparatedFields.notMem_of_mem_splitOn h
  · exact SeparatedFields.notMem_of_mem_splitOn h

/-- The payload of an ambiguous retirement is that of one with other values. -/
theorem exists_same_payload {engine : JsEngine} (hengine : PrintsDoubles engine) (hx : x.Doubles)
    (h : ¬ Unambiguous engine x) :
    ∃ y : RetiredCredit, y.Doubles ∧ payload engine x = payload engine y ∧ ¬ SameValues x y := by
  rw [unambiguous_iff] at h
  obtain ⟨P', _, B', R', hP', hB', hR', ⟨q, hq, rfl⟩, hlayout, hdiffer⟩ :=
    SeparatedFields.exists_layout_eq (parts_ne_nil _) (parts_ne_nil _)
      (show TonnageText engine _ from ⟨_, hx.2.1, rfl⟩) h (parts_ne_nil _)
  have hcolon : ∀ part ∈ SeparatedFields.layout P' (digits engine q) B' R', ':' ∉ part := by
    intro part hpart
    rw [← hlayout] at hpart
    exact colon_notMem_of_mem_middle hengine hx hpart
  unfold SeparatedFields.layout at hcolon
  have hproject := parts_ofList_intercalate hP' fun p hp => hcolon p (by simp [hp])
  have hbeneficiary := parts_ofList_intercalate hB' fun p hp => hcolon p (by simp [hp])
  have hreason := parts_ofList_intercalate hR' fun p hp => hcolon p (by simp [hp])
  let y : RetiredCredit := {
    creditId := x.creditId
    credit := { x.credit with
      projectId := String.ofList ([':'].intercalate P'), tonnes := q }
    retirement := { x.retirement with
      beneficiary := String.ofList ([':'].intercalate B')
      reason := String.ofList ([':'].intercalate R') } }
  have hy : y.Doubles := ⟨hx.1, hq, hx.2.2⟩
  refine ⟨y, hy, (payload_eq_iff hengine hx hy).mpr ⟨rfl, ?_, rfl⟩, fun hsame => hdiffer ?_⟩
  · show SeparatedFields.layout _ _ _ _ = SeparatedFields.layout (parts _) _ (parts _) (parts _)
    rw [hproject, hbeneficiary, hreason]
    exact hlayout
  · constructor
    · rw [hsame.projectId]
      exact hproject
    · rw [hsame.beneficiary]
      exact hbeneficiary

/-- **Which retirements are identified.**  The hash of a retirement is its own exactly if the
payload can be read in one way. -/
theorem identifies_iff (hengine : PrintsDoubles hasher.engine) (hx : x.Doubles) :
    Identifies hasher x ↔ Unambiguous hasher.engine x := by
  constructor
  · intro hidentifies
    by_contra h
    obtain ⟨y, hy, hpayload, hdiffer⟩ := exists_same_payload hengine hx h
    exact hdiffer (hidentifies y hy (fun _ => congrArg _ hpayload)
      (certificateHash_of_payload hpayload))
  · intro h y hy hfree hhash
    exact h.sameValues hengine hx hy (payload_of_certificateHash hfree hhash)

end Identification

end RetiredCredit

/-! ## The certificates of the database -/

namespace DbQuery

variable {α β : Type} {db : ApiDb}

/-- A write to another table keeps the certificates. -/
theorem write_certificates {row : Option α} {f : α → ApiDb}
    (hf : ∀ a, (f a).certificates = db.certificates) :
    (write db row f).2.certificates = db.certificates := by
  cases row with
  | none => rfl
  | some a => exact hf a

/-- An update of another table keeps the certificates. -/
theorem update_certificates {data : Option α} {row : Option β} {f : α → β → ApiDb}
    (hf : ∀ a b, (f a b).certificates = db.certificates) :
    (update db data row f).2.certificates = db.certificates := by
  cases data with
  | none => rfl
  | some a =>
      cases row with
      | none => rfl
      | some b => exact hf a b

/-- Only the insertion of a certificate changes the certificates. -/
theorem answer_certificates (client : DbClient) {q : DbQuery}
    (hq : ∀ row, q ≠ .insertCertificate row) (db : ApiDb) :
    (q.answer client db).2.certificates = db.certificates := by
  by_cases hreads : q.reads = true
  · rw [answer_reads client hreads]
  · cases q <;> first
      | exact absurd rfl hreads
      | exact write_certificates fun _ => rfl
      | exact update_certificates fun _ _ => rfl
      | skip
    case upsertUser stellarPub =>
      rw [answer]
      cases Mirror.textColumn client stellarPub <;> rfl
    case insertCredit row =>
      rcases row with _ | ⟨creditId, row⟩
      · rfl
      · rw [answer]
        split_ifs <;> rfl
    case insertOffer row =>
      rcases row with _ | ⟨offerId, row⟩
      · rfl
      · rw [answer]
        split_ifs <;> rfl
    case insertBridge row =>
      rcases row with _ | row
      · rfl
      · rw [answer]
        split_ifs <;> rfl
    case insertCertificate row => exact absurd rfl (hq row)
    case updateRetirementHash place certificateHash => rfl

end DbQuery

namespace CertificatesService

open Program (exec)
open ApiService

/-! ## The certificates of a batch -/

def CertificateRow.retired (row : CertificateRow) : RetiredCredit :=
  { creditId := row.creditId, credit := row.credit, retirement := row.retirement }

/-- Every certificate has the hash of its own values. -/
def Genuine (hasher : CertificateHost) (db : ApiDb) : Prop :=
  ∀ row ∈ db.certificates,
    row.certificateHash = (CertificateRow.retired row).certificateHash hasher

/-- A query that creates no certificate but with the hash of its values. -/
def IssuesGenuine (hasher : CertificateHost) (q : ApiQuery) : Prop :=
  ∀ row, q = .db (.insertCertificate row) ∨ q = .attempt (.insertCertificate row) →
    row.certificateHash = (CertificateRow.retired row).certificateHash hasher

section Batches

variable {σ : Type} {host : ApiHost σ} {hasher : CertificateHost} {s s' : BackendState σ}
  {user : String}

/-- A certificate with the hash of its own retirement may be added. -/
theorem Genuine.insert {db : ApiDb} (h : Genuine hasher db) {row : CertificateRow}
    (hrow : row.certificateHash = (CertificateRow.retired row).certificateHash hasher) :
    Genuine hasher (db.insertCertificate row) := by
  intro row' hmem
  rcases List.mem_append.mp hmem with hmem | hmem
  · exact h row' hmem
  · rw [List.mem_singleton.mp hmem]
    exact hrow

/-- The certificates stay genuine under a query that inserts no other ones. -/
theorem Genuine.answer {db : ApiDb} (h : Genuine hasher db) (client : DbClient) {q : DbQuery}
    (hq : ∀ row, q = .insertCertificate row →
      row.certificateHash = (CertificateRow.retired row).certificateHash hasher) :
    Genuine hasher (q.answer client db).2 := by
  by_cases hinsert : ∃ row, q = .insertCertificate row
  · obtain ⟨row, rfl⟩ := hinsert
    exact h.insert (hq row rfl)
  · unfold Genuine
    rw [DbQuery.answer_certificates client (fun row hrow => hinsert ⟨row, hrow⟩)]
    exact h

/-- What the queries of the API preserve. -/
theorem handle_genuine (host : ApiHost σ) (q : ApiQuery) (s : BackendState σ)
    (hq : IssuesGenuine hasher q) (h : Genuine hasher s.db) :
    Genuine hasher (host.handle q s).2.db := by
  cases q with
  | now => exact h
  | overtakes => exact h
  | db q => exact h.answer host.client fun row hrow => hq row (Or.inl (congrArg _ hrow))
  | attempt q => exact h.answer host.client fun row hrow => hq row (Or.inr (congrArg _ hrow))
  | stellar call => exact h

/-- A query that inserts no certificate issues none that is not genuine. -/
theorem issuesGenuine_of_ne {q : DbQuery} (hq : ∀ row, q ≠ .insertCertificate row) :
    IssuesGenuine hasher (.db q) := by
  rintro row (hrow | hrow)
  · exact absurd (ApiQuery.db.inj hrow) (hq row)
  · cases hrow

/-- A certificate with the hash of its own retirement may be inserted. -/
theorem issuesGenuine_insert {row : CertificateRow}
    (hrow : row.certificateHash = (CertificateRow.retired row).certificateHash hasher) :
    IssuesGenuine hasher (.db (.insertCertificate row)) := by
  rintro row' (h | h)
  · obtain rfl := DbQuery.insertCertificate.inj (ApiQuery.db.inj h)
    exact hrow
  · cases h

/-- A credit of a batch gets a certificate with the hash of its own retirement. -/
theorem enqueueCredit_uses (hasher : CertificateHost) (user : String) (creditId : ℤ)
    (credit : CreditRow) (latest : Option (ℕ × RetirementRow)) :
    (enqueueCredit hasher user creditId credit latest).Uses (IssuesGenuine hasher) := by
  rcases latest with _ | ⟨place, retirement⟩
  · trivial
  · have hfind : (prisma.certificate.findFirst
        (generateCertificateHash hasher creditId credit retirement)).Uses (IssuesGenuine hasher) :=
      ⟨issuesGenuine_of_ne (fun row h => nomatch h), fun _ => trivial⟩
    refine Program.Uses.bind hfind fun found => ?_
    rcases found with _ | ⟨id, row⟩
    · exact ⟨issuesGenuine_insert rfl, fun id =>
        ⟨issuesGenuine_of_ne (fun row h => nomatch h), fun _ => trivial⟩⟩
    · trivial

/-- So does each credit of a batch. -/
theorem enqueueCredits_uses (hasher : CertificateHost) (user : String)
    (credits : List (ℤ × CreditRow × Option (ℕ × RetirementRow))) :
    (enqueueCredits hasher user credits).Uses (IssuesGenuine hasher) := by
  induction credits with
  | nil => trivial
  | cons credit credits ih =>
      obtain ⟨creditId, credit, latest⟩ := credit
      exact Program.Uses.bind (enqueueCredit_uses hasher user creditId credit latest) fun _ =>
        Program.Uses.bind ih fun _ => trivial

/-- A batch issues certificates with the hash of their values. -/
theorem enqueueBatch_uses (hasher : CertificateHost) (user : String) (creditIds : List JsNumber) :
    (enqueueBatch hasher user creditIds).Uses (IssuesGenuine hasher) := by
  have hfind : ∀ ids, (prisma.credit.findRetired ids user).Uses (IssuesGenuine hasher) :=
    fun ids => ⟨issuesGenuine_of_ne (fun row h => nomatch h), fun _ => trivial⟩
  refine Program.Uses.bind (Program.uses_orThrow _ _) fun ids =>
    Program.Uses.bind (hfind ids) fun credits =>
      Program.Uses.bind (Program.uses_throwIf _ _) fun _ =>
        Program.Uses.bind (enqueueCredits_uses hasher user credits) fun _ => trivial

/-- A certificate that a turn reports as existing has the hash of the turn. -/
theorem enqueueCredit_existing {creditId : ℤ} {credit : CreditRow}
    {latest : Option (ℕ × RetirementRow)} {items : List BatchItem}
    (h : exec host.handle (enqueueCredit hasher user creditId credit latest) s = (.ok items, s'))
    {item : BatchItem} (hitem : item ∈ items) (hexisting : item.status = .existing) :
    ∃ place retirement row, latest = some (place, retirement) ∧ item.creditId = creditId ∧
      s.db.certificates[item.certificateId]? = some row ∧
      row.certificateHash = generateCertificateHash hasher creditId credit retirement := by
  rcases latest with _ | ⟨place, retirement⟩
  · cases h
    cases hitem
  · obtain ⟨found, s₁, hfind, hrest⟩ := Program.exec_bind_eq_ok.mp h
    rw [exec_certificate_findFirst] at hfind
    obtain ⟨hfound, rfl⟩ := Prod.mk.inj hfind
    cases found with
    | some existing =>
        obtain ⟨id, row⟩ := existing
        cases hrest
        obtain ⟨hrow, hhash⟩ := findFirst_eq_some (Except.ok.inj hfound)
        rw [List.mem_singleton.mp hitem]
        exact ⟨place, retirement, row, rfl, rfl, hrow, of_decide_eq_true hhash⟩
    | none =>
        -- a certificate that is created is reported as generated
        obtain ⟨id, s₂, -, hupdate⟩ := Program.exec_bind_eq_ok.mp hrest
        obtain ⟨_, s₃, -, hret⟩ := Program.exec_bind_eq_ok.mp hupdate
        cases hret
        rw [List.mem_singleton.mp hitem] at hexisting
        cases hexisting

/-- A credit reported as existing has a certificate in the table with its hash. -/
theorem enqueueCredits_existing {credits : List (ℤ × CreditRow × Option (ℕ × RetirementRow))}
    {items : List BatchItem}
    (h : exec host.handle (enqueueCredits hasher user credits) s = (.ok items, s'))
    {item : BatchItem} (hitem : item ∈ items) (hexisting : item.status = .existing) :
    ∃ credit place retirement row, (item.creditId, credit, some (place, retirement)) ∈ credits ∧
      s'.db.certificates[item.certificateId]? = some row ∧
      row.certificateHash = generateCertificateHash hasher item.creditId credit retirement := by
  induction credits generalizing s items with
  | nil =>
      cases h
      cases hitem
  | cons credit credits ih =>
      obtain ⟨creditId, credit, latest⟩ := credit
      obtain ⟨first, s₁, hfirst, hnext⟩ := Program.exec_bind_eq_ok.mp h
      obtain ⟨rest, s₂, hrest, hret⟩ := Program.exec_bind_eq_ok.mp hnext
      cases hret
      rcases List.mem_append.mp hitem with hitem | hitem
      · obtain ⟨place, retirement, row, rfl, hid, hrow, hhash⟩ :=
          enqueueCredit_existing hfirst hitem hexisting
        -- certificates are only appended
        have hkept := (enqueueCredit_certified hfirst).2.trans (enqueueCredits_certified hrest).2
        obtain ⟨more, hmore⟩ := hkept
        refine ⟨credit, place, retirement, row, ?_, ?_, ?_⟩
        · rw [hid]
          exact List.mem_cons_self
        · rw [← hmore, List.getElem?_append_left (List.getElem?_eq_some_iff.mp hrow).1]
          exact hrow
        · rw [hid]
          exact hhash
      · obtain ⟨credit', place, retirement, row, hmem, hrow, hhash⟩ := ih hrest hitem
        exact ⟨credit', place, retirement, row, List.mem_cons_of_mem _ hmem, hrow, hhash⟩

/-- The retirement for which an item of a batch reports a certificate. -/
def OfItem (db : ApiDb) (user : String) (item : BatchItem) (x : RetiredCredit) : Prop :=
  x.creditId = item.creditId ∧ db.credits item.creditId = some x.credit ∧
    ∃ place, db.latestRetirement item.creditId user = some (place, x.retirement)

/-- An item reported as existing has a certificate with the hash of a retirement of its credit. -/
theorem enqueueBatch_existing {creditIds : List JsNumber} {out : BatchResult}
    (h : exec host.handle (enqueueBatch hasher user creditIds) s = (.ok out, s'))
    {item : BatchItem} (hitem : item ∈ out.results) (hexisting : item.status = .existing) :
    ∃ x row, OfItem s.db user item x ∧ s'.db.certificates[item.certificateId]? = some row ∧
      row.certificateHash = x.certificateHash hasher := by
  obtain ⟨ids, s₁, hids, hnext⟩ := Program.exec_bind_eq_ok.mp h
  obtain ⟨-, rfl⟩ := Program.exec_orThrow_eq_ok.mp hids
  obtain ⟨credits, s₂, hcredits, hloop⟩ := Program.exec_bind_eq_ok.mp hnext
  have hfind :=
    (Program.exec_ask (ApiQuery.db (.findRetiredCredits ids user)) s).symm.trans hcredits
  obtain ⟨hanswer, rfl⟩ := Prod.mk.inj hfind
  obtain ⟨_, s₃, -, hitems⟩ := Program.exec_bind_eq_ok.mp hloop
  obtain ⟨items, s₄, hrun, hret⟩ := Program.exec_bind_eq_ok.mp hitems
  cases hret
  obtain ⟨credit, place, retirement, row, hmem, hrow, hhash⟩ :=
    enqueueCredits_existing hrun hitem hexisting
  rw [← Except.ok.inj hanswer] at hmem
  obtain ⟨k, -, hk⟩ := List.mem_filterMap.mp hmem
  obtain ⟨credit', hcredit, hguard⟩ := Option.bind_eq_some_iff.mp hk
  obtain ⟨_, -, hvalue⟩ := Option.bind_eq_some_iff.mp hguard
  obtain ⟨rfl, hpair⟩ := Prod.mk.inj (Option.some.inj hvalue)
  obtain ⟨rfl, hlatest⟩ := Prod.mk.inj hpair
  exact ⟨{ creditId := item.creditId, credit := credit', retirement := retirement }, row,
    ⟨rfl, hcredit, place, hlatest⟩, hrow, hhash⟩

/-- What a batch reports as existing is the certificate of a retirement with the same values, if
the retirement of the item is unambiguous. -/
def ReportsOwn (hasher : CertificateHost) (user : String) (before after : ApiDb)
    (item : BatchItem) : Prop :=
  ∃ x row, OfItem before user item x ∧ after.certificates[item.certificateId]? = some row ∧
    (x.Unambiguous hasher.engine → x.Doubles → (CertificateRow.retired row).Doubles →
      x.CollisionFree hasher (CertificateRow.retired row) →
      x.SameValues (CertificateRow.retired row))

/-- The certificate that is reported as existing is the item's own. -/
theorem enqueueBatch_reportsOwn (hengine : PrintsDoubles hasher.engine)
    (hgenuine : Genuine hasher s.db) {creditIds : List JsNumber} {out : BatchResult}
    (h : exec host.handle (enqueueBatch hasher user creditIds) s = (.ok out, s'))
    {item : BatchItem} (hitem : item ∈ out.results) (hexisting : item.status = .existing) :
    ReportsOwn hasher user s.db s'.db item := by
  obtain ⟨x, row, hof, hrow, hhash⟩ := enqueueBatch_existing h hitem hexisting
  have hafter : Genuine hasher (exec host.handle (enqueueBatch hasher user creditIds) s).2.db :=
    Program.exec_invariant (I := fun u : BackendState σ => Genuine hasher u.db)
      (handle_genuine host) (enqueueBatch_uses hasher user creditIds) hgenuine
  rw [h] at hafter
  have hown := hafter row (List.mem_of_getElem? hrow)
  refine ⟨x, row, hof, hrow, fun hclear hx hy hfree => ?_⟩
  exact (RetiredCredit.identifies_iff hengine hx).mpr hclear _ hy hfree (hhash.symm.trans hown)

/-- The certificate of an ambiguous retirement is reported for another one. -/
theorem enqueueCredit_misreports (hengine : PrintsDoubles hasher.engine) {x : RetiredCredit}
    (hx : x.Doubles) (hambiguous : ¬ x.Unambiguous hasher.engine) (host : ApiHost σ)
    (s : BackendState σ) (user : String) (place : ℕ) :
    ∃ row, ¬ x.SameValues (CertificateRow.retired row) ∧ Genuine hasher { certificates := [row] } ∧
      exec host.handle
          (enqueueCredit hasher user x.creditId x.credit (some (place, x.retirement)))
          { s with db := { s.db with certificates := [row] } } =
        (.ok [{ creditId := x.creditId, status := .existing, certificateId := 0 }],
          { s with db := { s.db with certificates := [row] } }.tick) := by
  obtain ⟨y, -, hpayload, hdiffer⟩ :=
    RetiredCredit.exists_same_payload hengine hx hambiguous
  have hhash := RetiredCredit.certificateHash_of_payload hpayload
  let row : CertificateRow := {
    user, creditId := y.creditId, txHash := y.retirement.txHash, credit := y.credit
    retirement := y.retirement, certificateHash := x.certificateHash hasher }
  refine ⟨row, hdiffer, fun row' hmem => ?_, ?_⟩
  · rw [List.mem_singleton.mp hmem]
    exact hhash
  · have hfound : ApiDb.findFirst [row] (fun _ row' => row'.certificateHash =
        generateCertificateHash hasher x.creditId x.credit x.retirement) = some (0, row) :=
      findFirst_eq_some_iff.mpr ⟨rfl, decide_eq_true rfl, fun k _ hk _ => absurd hk (by omega)⟩
    have hfind : exec host.handle (prisma.certificate.findFirst
          (generateCertificateHash hasher x.creditId x.credit x.retirement))
          { s with db := { s.db with certificates := [row] } } =
        (.ok (some (0, row)), { s with db := { s.db with certificates := [row] } }.tick) := by
      rw [exec_certificate_findFirst]
      exact congrArg (fun found => (Except.ok found, _)) hfound
    exact (Program.exec_bind_of_ok hfind).trans rfl

end Batches

open Transition (run)

/-- **What the hashes of certificates identify.**  A retirement is identified by its hash exactly
if it is unambiguous; and after any run of programs that issue no certificate but with the hash
of its values, a batch reports as existing no certificate of other values for an unambiguous
retirement. -/
theorem certificateHash_identifies_iff (hasher : CertificateHost)
    (hengine : PrintsDoubles hasher.engine) :
    (∀ x : RetiredCredit, x.Doubles → (x.Identifies hasher ↔ x.Unambiguous hasher.engine)) ∧
    ∀ (σ ι α : Type) (_ : DecidableEq ι) (host : ApiHost σ)
      (pool : Program.Pool ι (BackendState σ) ApiQuery.Reply ServiceError α) (turns : List ι)
      (s s' : BackendState σ) (user : String) (creditIds : List JsNumber) (out : BatchResult),
      pool.state.db.certificates = [] →
      (∀ i, (pool.programs i).Uses (IssuesGenuine hasher)) →
      s = (run (Program.Pool.next host.handle) pool turns).state →
      exec host.handle (enqueueBatch hasher user creditIds) s = (.ok out, s') →
      ∀ item ∈ out.results, item.status = .existing →
        ReportsOwn hasher user s.db s'.db item := by
  refine ⟨fun x hx => RetiredCredit.identifies_iff hengine hx, ?_⟩
  rintro σ ι α _ host pool turns s s' user creditIds out hempty huses rfl h item hitem hexisting
  refine enqueueBatch_reportsOwn hengine ?_ h hitem hexisting
  refine Program.Pool.run_state (I := fun u : BackendState σ => Genuine hasher u.db)
    (handle_genuine host) huses ?_ turns
  intro row hrow
  rw [hempty] at hrow
  cases hrow

end CertificatesService

namespace Sample

open RetiredCredit

/-- Doubles that are no integers are printed as fractions. -/
def fractionEngine : JsEngine where
  printDouble q := toString q.num ++ "/" ++ toString q.den
  decodeUtf8 _ := ""

/-- The engine of the examples prints every double. -/
theorem printsDoubles_fractionEngine : PrintsDoubles fractionEngine := by
  have htext : ∀ q : ℚ, (fractionEngine.printDouble q).toList =
      (toString q.num).toList ++ '/' :: (toString (q.den : ℤ)).toList := by
    intro q
    show (toString q.num ++ "/" ++ toString (q.den : ℤ)).toList = _
    rw [String.toList_append, String.toList_append, List.append_assoc]
    rfl
  have hslash : ∀ z : ℤ, '/' ∉ (toString z).toList :=
    notMem_toString_int (by decide) (by decide)
  refine ⟨fun p q _ _ h => ?_, fun q _ z _ h => ?_, fun q _ h => ?_⟩
  · have hparts := congrArg (fun text => text.toList.splitOn '/') h
    simp only [htext, List.splitOn_append_cons_self, List.splitOn_eq_singleton (hslash _),
      List.singleton_append, List.cons.injEq, String.toList_inj, and_true] at hparts
    exact Rat.ext (Int.repr_injective hparts.1) (by exact_mod_cast Int.repr_injective hparts.2)
  · refine hslash z ?_
    rw [← h, htext]
    simp
  · rw [htext] at h
    have hcolon : ∀ z : ℤ, ':' ∉ (toString z).toList :=
      notMem_toString_int (by decide) (by decide)
    rcases List.mem_append.mp h with h | h
    · exact hcolon _ h
    · rcases List.mem_cons.mp h with h | h
      · exact absurd h (by decide)
      · exact hcolon _ h

/-- SHA-256 on the payloads of the samples. -/
def payloadHost : CertificatesService.CertificateHost where
  engine := fractionEngine
  sha256 payload :=
    if payload = ApiScVal.utf8 "1:PRJ-1:10:Acme:Berlin:Offset:1767225600000" then
      0xdcae953d7309e9c5dedc9777f175da9c82fea65bc4142b78275a810a19aa7eb9#256
    else if payload = ApiScVal.utf8 "1:PRJ-1:10:Acme:Offset:1767225600000" then
      0x1098b6c08f7a79ec1bd5f023798408f4921a13e473acefdae5bba5183771bb96#256
    else if payload = ApiScVal.utf8 "1:V:1000:B:Offset:20003" then
      0x5f15ab7ec2d52cb18b266a31ab3fdb1d26726b4f41a94fe994a67ef8897fbbb7#256
    else 0#256

/-- Ten tonnes, retired at the beginning of 2026. -/
def retiredFor (beneficiary reason : String) : RetiredCredit where
  creditId := 1
  credit := { creditRow .retired with projectId := "PRJ-1", tonnes := 10 }
  retirement := {
    creditId := 1, retiredBy := wallet, beneficiary, reason, accountingPeriod := "2026-Q1"
    tonnesRetired := 10, txHash := "tx", ledgerSequence := 2, timestamp := 1767225600000 }

/-- The numbers of the examples are doubles. -/
theorem doubles_retiredFor (beneficiary reason : String) :
    (retiredFor beneficiary reason).Doubles := by
  refine ⟨?_, ?_, ?_⟩
  · exact JsNumber.roundDouble_intCast (z := 1) (by decide)
  · exact JsNumber.roundDouble_intCast (z := 10) (by decide)
  · exact JsNumber.roundDouble_intCast (z := 1767225600000) (by decide)

/-- A batch for the retirement of account 0. -/
def certifying : Program.Pool Unit (BackendState (World Balances)) ApiQuery.Reply ServiceError
    BatchResult where
  state := retired
  programs _ := CertificatesService.enqueueBatch payloadHost wallet [.finite 1]

/-- After that batch. -/
def certified : BackendState (World Balances) :=
  (Transition.run (Program.Pool.next (stellarHost.api apiConfig).handle) certifying
    (List.replicate 8 ())).state

/-- The certificate has the digest of its payload. -/
example : certified.db.certificates.map CertificateRow.certificateHash = [retiredHash] := by
  decide +kernel

end Sample

namespace CertificatesService

open Program (exec)
open RetiredCredit

open Sample in
/-- A colon moves from the beneficiary to the reason. -/
theorem not_certificateHash_identifies :
    ¬ ∀ hasher : CertificateHost, PrintsDoubles hasher.engine →
      ∀ x y : RetiredCredit, x.Doubles → y.Doubles → CollisionFree hasher x y →
        x.certificateHash hasher = y.certificateHash hasher → SameValues x y := by
  intro h
  have hpayload : payload fractionEngine (retiredFor "Acme:Berlin" "Offset") =
      payload fractionEngine (retiredFor "Acme" "Berlin:Offset") := by decide +kernel
  have hsame := h payloadHost printsDoubles_fractionEngine (retiredFor "Acme:Berlin" "Offset")
    (retiredFor "Acme" "Berlin:Offset") (doubles_retiredFor _ _) (doubles_retiredFor _ _)
    (fun _ => congrArg _ hpayload) (certificateHash_of_payload hpayload)
  exact absurd hsame.reason (by decide)

open Sample in
/-- A name without a colon is identified, and a second batch reports the certificate of the
first. -/
theorem certificateHash_identifies_sample :
    Identifies payloadHost (retiredFor "Acme" "Offset") ∧
    ¬ Identifies payloadHost (retiredFor "Acme:Berlin" "Offset") ∧
    ∃ out s', exec (stellarHost.api apiConfig).handle
        (enqueueBatch payloadHost wallet [.finite 1]) certified = (.ok out, s') ∧
      ∃ item ∈ out.results, item.status = .existing ∧
        ReportsOwn payloadHost wallet certified.db s'.db item := by
  obtain ⟨hidentifies, hbatches⟩ :=
    certificateHash_identifies_iff payloadHost printsDoubles_fractionEngine
  refine ⟨(hidentifies _ (doubles_retiredFor _ _)).mpr ⟨by decide, by decide, ?_⟩, ?_, ?_⟩
  · have hparts : (retiredFor "Acme" "Offset").credit.projectId.toList.splitOn ':' =
        ["PRJ-1".toList] := List.splitOn_eq_singleton (by decide)
    rw [hparts]
    exact fun part hpart => nomatch hpart
  · intro h
    exact ((hidentifies _ (doubles_retiredFor _ _)).mp h).beneficiary (by decide)
  · have hreports : (match exec (stellarHost.api apiConfig).handle
          (enqueueBatch payloadHost wallet [.finite 1]) certified with
        | (.ok out, _) => out.results.any fun item => item.status = .existing
        | (.error _, _) => false) = true := by decide +kernel
    split at hreports
    · rename_i out s' henqueue
      obtain ⟨item, hitem, hexisting⟩ := List.any_eq_true.mp hreports
      have hexisting := of_decide_eq_true hexisting
      exact ⟨out, s', henqueue, item, hitem, hexisting,
        hbatches _ _ _ _ (stellarHost.api apiConfig) certifying (List.replicate 8 ()) certified s'
          wallet [.finite 1] out (by decide +kernel)
          (fun _ => enqueueBatch_uses payloadHost wallet [.finite 1]) rfl henqueue item hitem
          hexisting⟩
    · cases hreports

end CertificatesService

end CarbonVeritas
