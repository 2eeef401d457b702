/-
# Requests that issue a credit

`api/src/credits/dto/create-credit.dto.ts`, and what `issueCredit` of
`api/src/credits/credits.service.ts` makes of a request: the metadata that it submits once the
document is pinned.

The decorators of the request and `validate_metadata` check different things.  A request that
passes may have a vintage that is no date, lies before 1970 or ends before it starts, a fraction
of a tonne, a country of two characters that are not ASCII, or goals past the fourteenth, whose
flags the contract refuses.  What is compared here are the fields and their values; that the
contract does not read the vector which holds them is said in `StellarService`.

* `FitsContract` : the requests without these;
* `acceptedOnChain_iff` : they are the requests whose metadata is encoded and accepted.
-/
import CarbonVeritas.CreditRegistrySpec
import CarbonVeritas.NumberArguments

namespace CarbonVeritas

/-! ## The request -/

/-- A `CreateCreditDto`; an optional property may be missing or null. -/
structure CreateCreditDto where
  projectId : String
  methodology : String
  vintageStart : String
  vintageEnd : String
  tonnes : JsNumber
  geography : String
  sdgCobenefits : Option (List JsNumber) := none
  permanenceRating : Option JsNumber := none
  bufferContributionPct : Option JsNumber := none
  additionalityType : Option JsNumber := none

/-- The length of a text for `MinLength` and `MaxLength`: its characters, of which some that only
select how another is shown do not count. -/
structure TextLength where
  count : String → ℕ
  count_le : ∀ s, count s ≤ s.length
  count_ascii : ∀ s, (∀ c ∈ s.toList, c.toNat < 128) → count s = s.length

/-- `Date.parse`, in milliseconds; `none` for an invalid date. -/
structure DateParser where
  parse : String → Option ℤ
  inRange : ∀ s t, parse s = some t → |t| ≤ 8640000000000000

namespace ClassValidator

def isNotEmpty (s : String) : Bool := s ≠ ""

/-- `IsNumber` admits neither `NaN` nor an infinity. -/
def isNumber : JsNumber → Bool
  | .finite _ => true
  | _ => false

def isInt (x : JsNumber) : Bool := (ApiScVal.asInteger x).isSome

def min (bound : ℚ) (x : JsNumber) : Bool := x.ge (.finite bound)

def max (bound : ℚ) (x : JsNumber) : Bool := (JsNumber.finite bound).ge x

/-- `@IsOptional() @IsInt() @Min(0) @Max(bound)` -/
def optionalInt (bound : ℚ) (x : Option JsNumber) : Bool :=
  x.all fun y => isInt y && min 0 y && max bound y

end ClassValidator

namespace CreateCreditDto

open ClassValidator

/-- The request passes its decorators. -/
structure Passes (length : TextLength) (dto : CreateCreditDto) : Prop where
  projectId : isNotEmpty dto.projectId = true
  methodology : isNotEmpty dto.methodology = true
  vintageStart : isNotEmpty dto.vintageStart = true
  vintageEnd : isNotEmpty dto.vintageEnd = true
  tonnes : isNumber dto.tonnes = true ∧ min 1 dto.tonnes = true
  geography : isNotEmpty dto.geography = true ∧
    2 ≤ length.count dto.geography ∧ length.count dto.geography ≤ 2
  sdgCobenefits : ∀ goals ∈ dto.sdgCobenefits, goals.all isInt = true
  permanenceRating : optionalInt 100 dto.permanenceRating = true
  bufferContributionPct : optionalInt 20 dto.bufferContributionPct = true
  additionalityType : optionalInt 2 dto.additionalityType = true

end CreateCreditDto

/-! ## The metadata -/

namespace CreditsService

/-- `Math.floor(new Date(text).getTime() / 1000)` -/
def epochSeconds (dates : DateParser) (text : String) : JsNumber :=
  match dates.parse text with
  | some t => (JsNumber.roundDouble (t / 1000)).floor
  | none => .nan

def generateSerialPrefix (projectId methodology : String) : String :=
  let abbr := ((methodology.toList.filter Char.isAlphanum).take 6).map Char.toUpper
  projectId ++ "-" ++ String.ofList abbr ++ "-"

/-- How far a shift by `x` goes. -/
def shiftCount : JsNumber → ℕ
  | .finite q => ((if 0 ≤ q then ⌊q⌋ else ⌈q⌉) % 32).toNat
  | _ => 0

/-- The bit of a goal in `1 << (g - 1)`. -/
def sdgBit (g : JsNumber) : ℕ := shiftCount (g.sub (.finite 1))

/-- The operators of the flags are those of 32-bit integers. -/
def sdgMask (goals : List JsNumber) : BitVec 32 :=
  goals.foldl (fun acc g => acc ||| 1#32 <<< sdgBit g) 0#32

def computeSdgFlags (goals : List JsNumber) : JsNumber := .finite ((sdgMask goals).toInt : ℚ)

/-- The metadata that `issueCredit` submits. -/
def issueMetadata (dates : DateParser) (dto : CreateCreditDto) (ipfsHash : String) :
    CreditMetadataInput where
  projectId := some dto.projectId
  methodology := some dto.methodology
  vintageStart := some (.number (epochSeconds dates dto.vintageStart))
  vintageEnd := some (.number (epochSeconds dates dto.vintageEnd))
  tonnes := some (.number dto.tonnes)
  geography := some dto.geography
  serialPrefix := some (generateSerialPrefix dto.projectId dto.methodology)
  sdgFlags := some (computeSdgFlags (dto.sdgCobenefits.getD []))
  permanenceRating := some (dto.permanenceRating.getD (.finite 50))
  bufferContributionPct := some (dto.bufferContributionPct.getD (.finite 10))
  additionalityType := some (dto.additionalityType.getD (.finite 0))
  ipfsHash := some ipfsHash

end CreditsService

namespace ApiScVal

/-! ## Texts in UTF-8 -/

/-- A text has as many bytes as its characters take together. -/
theorem length_utf8 (s : String) : (utf8 s).length = (s.toList.map Char.utf8Size).sum := by
  have hbytes : s.toUTF8 = (s.toList.flatMap String.utf8EncodeChar).toByteArray := by
    conv_lhs => rw [← String.ofList_toList (s := s)]
    rfl
  unfold utf8
  rw [hbytes, Array.length_toList]
  show ByteArray.size _ = _
  rw [List.size_toByteArray, List.length_flatMap]
  simp

/-- A character takes one byte when it is ASCII. -/
theorem utf8Size_eq_one_iff (c : Char) : c.utf8Size = 1 ↔ c.toNat < 128 := by
  rw [Char.utf8Size_eq_one_iff, UInt32.le_iff_toNat_le]
  exact Nat.lt_succ_iff.symm

/-- Every character takes a byte at least. -/
theorem length_le_sum_utf8Size (l : List Char) : l.length ≤ (l.map Char.utf8Size).sum := by
  have hall : ∀ n ∈ l.map Char.utf8Size, 1 ≤ n :=
    List.forall_mem_map.mpr fun c _ => c.utf8Size_pos
  simpa using List.length_le_sum_of_one_le _ hall

/-- A text has no more bytes than characters exactly when it is written in ASCII. -/
theorem length_utf8_le_iff (s : String) :
    (utf8 s).length ≤ s.length ↔ ∀ c ∈ s.toList, c.toNat < 128 := by
  rw [length_utf8, ← String.length_toList]
  generalize s.toList = l
  induction l with
  | nil => simp
  | cons c l ih =>
      have hpos := c.utf8Size_pos
      have hle := length_le_sum_utf8Size l
      rw [List.map_cons, List.sum_cons, List.length_cons, List.forall_mem_cons, ← ih,
        ← utf8Size_eq_one_iff]
      omega

/-- A text has no fewer bytes than characters. -/
theorem length_le_length_utf8 (s : String) : s.length ≤ (utf8 s).length := by
  rw [length_utf8, ← String.length_toList]
  exact length_le_sum_utf8Size s.toList

/-- Only the empty text has no bytes. -/
theorem utf8_eq_nil_iff (s : String) : utf8 s = [] ↔ s = "" := by
  rw [← List.length_eq_zero_iff]
  constructor
  · intro h
    have hle := length_le_length_utf8 s
    rw [← String.length_eq_zero_iff]
    omega
  · rintro rfl
    rfl

end ApiScVal

/-! ## The flags of the goals -/

namespace CreditsService

/-- A bit of the flags is set when a goal of the list sets it. -/
theorem getLsbD_foldl (goals : List JsNumber) (acc : BitVec 32) (i : ℕ) :
    (goals.foldl (fun acc g => acc ||| 1#32 <<< sdgBit g) acc).getLsbD i = true ↔
      acc.getLsbD i = true ∨ i < 32 ∧ ∃ g ∈ goals, sdgBit g = i := by
  induction goals generalizing acc with
  | nil => simp
  | cons g goals ih =>
      have hbit : (1#32 <<< sdgBit g).getLsbD i = true ↔ i < 32 ∧ sdgBit g = i := by
        rw [BitVec.getLsbD_shiftLeft]
        simp [BitVec.getLsbD_one]
        omega
      rw [List.foldl_cons, ih, BitVec.getLsbD_or, Bool.or_eq_true, hbit, List.exists_mem_cons_iff]
      tauto

/-- The shift operator takes its count modulo 32. -/
theorem shiftCount_lt (x : JsNumber) : shiftCount x < 32 := by
  cases x with
  | finite q =>
      show Int.toNat (_ % 32) < 32
      omega
  | nan => decide
  | infinity negative => exact Nat.zero_lt_succ 31

/-- The bit of an integer is what its predecessor leaves modulo 32: goals 15 to 17 have the
bits from 14 on, and goal 0 the sign bit. -/
theorem sdgBit_intCast {z : ℤ} (hz : |z - 1| ≤ 2 ^ 53) :
    sdgBit (.finite (z : ℚ)) = ((z - 1) % 32).toNat := by
  have hsub : (JsNumber.finite (z : ℚ)).sub (.finite 1) = .finite ((z - 1 : ℤ) : ℚ) := by
    have hround := JsNumber.roundDouble_intCast hz
    rw [← hround]
    show JsNumber.roundDouble (z + -1) = _
    rw [Int.cast_sub, Int.cast_one, sub_eq_add_neg]
  unfold sdgBit shiftCount
  rw [hsub]
  dsimp only
  rw [Int.floor_intCast, Int.ceil_intCast, ite_self]

/-- The flags stay below `2^14` exactly when each goal has one of the first fourteen bits. -/
theorem sdgMask_lt_iff (goals : List JsNumber) :
    (sdgMask goals).toNat < 2 ^ 14 ↔ ∀ g ∈ goals, sdgBit g < 14 := by
  constructor
  · intro hlt g hg
    by_contra hge
    have hbit : (sdgMask goals).getLsbD (sdgBit g) = true :=
      (getLsbD_foldl goals 0#32 (sdgBit g)).mpr (.inr ⟨shiftCount_lt _, g, hg, rfl⟩)
    have hlow : (sdgMask goals).toNat < 2 ^ sdgBit g :=
      hlt.trans_le (Nat.pow_le_pow_right (by decide) (Nat.le_of_not_lt hge))
    have hclear := Nat.testBit_lt_two_pow hlow
    rw [BitVec.testBit_toNat, hbit] at hclear
    cases hclear
  · intro hall
    refine Nat.lt_pow_two_of_testBit _ fun i hi => ?_
    rw [BitVec.testBit_toNat, ← Bool.not_eq_true]
    intro hbit
    rcases (getLsbD_foldl goals 0#32 i).mp hbit with hzero | ⟨-, g, hg, rfl⟩
    · simp at hzero
    · exact absurd (hall g hg) (Nat.not_lt.mpr hi)

end CreditsService

/-! ## What the contract reads -/

namespace StellarHost

variable {T : Type} {host : StellarHost T}

/-- The metadata reads each field of the input. -/
structure Encodes (host : StellarHost T) (input : CreditMetadataInput) (m : CreditMetadata) :
    Prop where
  projectId : ApiScVal.utf8 (input.projectId.getD "") = m.projectId
  methodology : ApiScVal.utf8 (input.methodology.getD "") = m.methodology
  vintageStart : host.u64 (input.vintageStart.getD (.number (.finite 0))) = .ok m.vintageStart
  vintageEnd : host.u64 (input.vintageEnd.getD (.number (.finite 0))) = .ok m.vintageEnd
  tonnes : host.i128 (input.tonnes.getD (.number (.finite 0))) = .ok m.tonnes
  geography : ApiScVal.utf8 (input.geography.getD "") = m.geography
  serialPrefix : ApiScVal.utf8 (input.serialPrefix.getD "") = m.serialPrefix
  sdgFlags : host.u32 (input.sdgFlags.getD (.finite 0)) = .ok m.sdgFlags
  permanenceRating : host.u32 (input.permanenceRating.getD (.finite 0)) = .ok m.permanenceRating
  bufferContributionPct :
    host.u32 (input.bufferContributionPct.getD (.finite 0)) = .ok m.bufferContributionPct
  additionalityType :
    host.u32 (input.additionalityType.getD (.finite 0)) = .ok m.additionalityType
  ipfsHash : ApiScVal.utf8 (input.ipfsHash.getD "") = m.ipfsHash
  status : ∃ n, host.u32 (input.status.getD (.finite 0)) = .ok n ∧
    CreditStatus.ofU32 n = some m.status
  createdAt : host.u64 (input.createdAt.getD (.number (.finite 0))) = .ok m.createdAt
  tokenId : read (ApiScVal.tokenIdScVal input.tokenId) ScVal.toBytes32 = .ok m.tokenId

theorem orThrow_eq_ok {α : Type} {x : Option α} {e : ApiError} {a : α} :
    ApiScVal.orThrow x e = .ok a ↔ x = some a := by
  cases x with
  | none => exact iff_of_false nofun nofun
  | some b =>
      show Except.ok b = Except.ok a ↔ _
      rw [Except.ok.injEq, Option.some.injEq]

theorem read_eq_ok {α : Type} {v : Except ApiError ScVal} {f : ScVal → Option α} {a : α} :
    read v f = .ok a ↔ ∃ x, v = .ok x ∧ f x = some a := by
  simp only [read, args_bind_eq_ok, orThrow_eq_ok]

/-- The values that are written for an input are read as the metadata. -/
theorem metadataFields_eq_ok {input : CreditMetadataInput} {m : CreditMetadata} :
    (∃ fields, ApiScVal.metadataFields host.engine host.sdk input = .ok fields ∧
      CreditMetadata.ofFields fields = some m) ↔ host.Encodes input m := by
  simp only [ApiScVal.metadataFields, args_bind_eq_ok, args_pure_eq_ok]
  constructor
  · rintro ⟨_, ⟨vs, hvs, ve, hve, t, ht, sdg, hsdg, perm, hperm, buf, hbuf, add, hadd, st, hst,
      at', hat, token, htoken, rfl⟩, hread⟩
    obtain ⟨⟨h1, h2, hvs', hve', ht', h6, h7, hsdg', hperm', hbuf', hadd', h12⟩, hst', hat',
      htoken'⟩ := CreditMetadata.ofFields_eq_some.mp hread
    obtain ⟨n, hn, hstatus⟩ := Option.bind_eq_some_iff.mp hst'
    exact ⟨Option.some.inj h1, Option.some.inj h2, read_eq_ok.mpr ⟨vs, hvs, hvs'⟩,
      read_eq_ok.mpr ⟨ve, hve, hve'⟩, read_eq_ok.mpr ⟨t, ht, ht'⟩, Option.some.inj h6,
      Option.some.inj h7, read_eq_ok.mpr ⟨sdg, hsdg, hsdg'⟩, read_eq_ok.mpr ⟨perm, hperm, hperm'⟩,
      read_eq_ok.mpr ⟨buf, hbuf, hbuf'⟩, read_eq_ok.mpr ⟨add, hadd, hadd'⟩, Option.some.inj h12,
      ⟨n, read_eq_ok.mpr ⟨st, hst, hn⟩, hstatus⟩, read_eq_ok.mpr ⟨at', hat, hat'⟩,
      read_eq_ok.mpr ⟨token, htoken, htoken'⟩⟩
  · rintro ⟨h1, h2, hvs, hve, ht, h6, h7, hsdg, hperm, hbuf, hadd, h12, ⟨n, hn, hst⟩, hat, htoken⟩
    obtain ⟨vs, hvs, hvs'⟩ := read_eq_ok.mp hvs
    obtain ⟨ve, hve, hve'⟩ := read_eq_ok.mp hve
    obtain ⟨t, ht, ht'⟩ := read_eq_ok.mp ht
    obtain ⟨sdg, hsdg, hsdg'⟩ := read_eq_ok.mp hsdg
    obtain ⟨perm, hperm, hperm'⟩ := read_eq_ok.mp hperm
    obtain ⟨buf, hbuf, hbuf'⟩ := read_eq_ok.mp hbuf
    obtain ⟨add, hadd, hadd'⟩ := read_eq_ok.mp hadd
    obtain ⟨status, hstatus, hn'⟩ := read_eq_ok.mp hn
    obtain ⟨at', hat, hat'⟩ := read_eq_ok.mp hat
    obtain ⟨token, htoken, htoken'⟩ := read_eq_ok.mp htoken
    exact ⟨_, ⟨vs, hvs, ve, hve, t, ht, sdg, hsdg, perm, hperm, buf, hbuf, add, hadd, status,
      hstatus, at', hat, token, htoken, rfl⟩, CreditMetadata.ofFields_eq_some.mpr
        ⟨⟨congrArg some h1, congrArg some h2, hvs', hve', ht', congrArg some h6, congrArg some h7,
          hsdg', hperm', hbuf', hadd', congrArg some h12⟩,
          Option.bind_eq_some_iff.mpr ⟨n, hn', hst⟩, hat', htoken'⟩⟩

end StellarHost

/-! ## What the contract accepts -/

namespace CreateCreditDto

open CreditsService

/-- The fields of the request's metadata are encoded, and `validate_metadata` accepts the values
that are written for them. -/
def AcceptedOnChain {T : Type} (host : StellarHost T) (dates : DateParser) (dto : CreateCreditDto)
    (ipfsHash : String) : Prop :=
  ∃ fields m,
    ApiScVal.metadataFields host.engine host.sdk (issueMetadata dates dto ipfsHash) = .ok fields ∧
      CreditMetadata.ofFields fields = some m ∧ CreditRegistry.validateMetadata m = .ok ()

/-- What the contract checks and the decorators do not. -/
structure FitsContract (dates : DateParser) (dto : CreateCreditDto) : Prop where
  /-- the vintage starts a second into 1970 or later, and ends in no earlier second -/
  vintage : ∃ start stop : ℤ, dates.parse dto.vintageStart = some start ∧
    dates.parse dto.vintageEnd = some stop ∧ 1000 ≤ start ∧ start / 1000 ≤ stop / 1000
  tonnes : ∃ k : ℤ, dto.tonnes = .finite (k : ℚ) ∧ k ≤ MAX_TONNES
  geography : ∀ c ∈ dto.geography.toList, c.toNat < 128
  sdgCobenefits : ∀ g ∈ dto.sdgCobenefits.getD [], sdgBit g < 14

end CreateCreditDto

namespace CreditsService

variable {T : Type} {host : StellarHost T} {dates : DateParser}

/-- A date is encoded by its second, if it has one from 1970 on. -/
theorem u64_epochSeconds {text : String} {n : ℕ} :
    host.u64 (.number (epochSeconds dates text)) = .ok n ↔
      ∃ t, dates.parse text = some t ∧ t / 1000 = n := by
  unfold epochSeconds
  cases ht : dates.parse text with
  | none => exact iff_of_false (StellarHost.u64_nan n) nofun
  | some t =>
      have hrange := abs_le.mp (dates.inRange text t ht)
      have hsmall : (t / 1000).natAbs ≤ 2 ^ 53 := by omega
      dsimp only
      rw [JsNumber.floor_roundDouble_div (dates.inRange text t ht), StellarHost.u64_intCast hsmall]
      simp

/-- The flags are read as an `u32` that passes exactly when they have no bit past the
fourteenth. -/
theorem u32_computeSdgFlags (host : StellarHost T) (goals : List JsNumber) :
    (∃ n, host.u32 (computeSdgFlags goals) = .ok n ∧ n ≤ 0x3FFF) ↔ ∀ g ∈ goals, sdgBit g < 14 := by
  rw [← sdgMask_lt_iff]
  simp only [StellarHost.u32_eq_ok, computeSdgFlags, JsNumber.finite.injEq, Int.cast_inj]
  have htoInt := BitVec.toInt_eq_toNat_cond (sdgMask goals)
  constructor
  · rintro ⟨n, hn, hle⟩
    split_ifs at htoInt
    · omega
    · have hlt := (sdgMask goals).isLt
      omega
  · intro hlt
    refine ⟨(sdgMask goals).toNat, ?_, by omega⟩
    rw [if_pos (by omega)] at htoInt
    exact htoInt

/-- An optional integer is read as it is, or as its default. -/
theorem u32_optionalInt (host : StellarHost T) (default : ℕ) {bound : ℕ} {x : Option JsNumber}
    (hx : ClassValidator.optionalInt bound x = true) (hdefault : default ≤ bound) :
    ∃ n, host.u32 (x.getD (.finite (default : ℤ))) = .ok n ∧ n ≤ bound := by
  cases x with
  | none => exact ⟨default, StellarHost.u32_eq_ok.mpr rfl, hdefault⟩
  | some y =>
      simp only [ClassValidator.optionalInt, Option.all_some, Bool.and_eq_true] at hx
      obtain ⟨⟨hint, hmin⟩, hmax⟩ := hx
      cases y with
      | nan => cases hint
      | infinity negative => cases hint
      | finite q =>
          obtain ⟨z, hz⟩ := Option.isSome_iff_exists.mp hint
          simp only [ApiScVal.asInteger, Option.ite_none_right_eq_some, Option.some.injEq] at hz
          obtain ⟨hden, rfl⟩ := hz
          have hcast : (q.num : ℚ) = q := Rat.coe_int_num_of_den_eq_one hden
          have hlow : 0 ≤ q.num := Rat.num_nonneg.mpr (of_decide_eq_true hmin)
          have hhigh : q.num ≤ bound := by
            have hle : q ≤ bound := of_decide_eq_true hmax
            rw [← hcast] at hle
            exact_mod_cast hle
          refine ⟨q.num.toNat, StellarHost.u32_eq_ok.mpr ?_, by omega⟩
          rw [Int.toNat_of_nonneg hlow, hcast]
          rfl

/-- Of the texts of two characters, the contract accepts those of two bytes. -/
theorem geography_iff {length : TextLength} {s : String} (hlow : 2 ≤ length.count s)
    (hhigh : length.count s ≤ 2) :
    (ApiScVal.utf8 s).length = 2 ↔ ∀ c ∈ s.toList, c.toNat < 128 := by
  have hcount := length.count_le s
  have hbytes := ApiScVal.length_le_length_utf8 s
  constructor
  · intro h
    exact (ApiScVal.length_utf8_le_iff s).mp (by omega)
  · intro hascii
    have hle := (ApiScVal.length_utf8_le_iff s).mpr hascii
    have heq := length.count_ascii s hascii
    omega

end CreditsService

namespace CreateCreditDto

open CreditsService

variable {T : Type} {host : StellarHost T} {dates : DateParser} {length : TextLength}
  {dto : CreateCreditDto} {ipfsHash : String}

/-- A request is accepted when its metadata is encoded as a value that is valid. -/
theorem acceptedOnChain_iff_encodes : dto.AcceptedOnChain host dates ipfsHash ↔
    ∃ m, host.Encodes (issueMetadata dates dto ipfsHash) m ∧
      CreditRegistry.validateMetadata m = .ok () := by
  constructor
  · rintro ⟨fields, m, hfields, hread, hvalid⟩
    exact ⟨m, StellarHost.metadataFields_eq_ok.mp ⟨fields, hfields, hread⟩, hvalid⟩
  · rintro ⟨m, hencodes, hvalid⟩
    obtain ⟨fields, hfields, hread⟩ := StellarHost.metadataFields_eq_ok.mpr hencodes
    exact ⟨fields, m, hfields, hread, hvalid⟩

/-- A request that fits is encoded and accepted. -/
theorem FitsContract.accepted (hsdk : host.sdk.ReadsIntegers) (hdto : dto.Passes length)
    (h : dto.FitsContract dates) : dto.AcceptedOnChain host dates ipfsHash := by
  obtain ⟨start, stop, hstart, hstop, hfirst, horder⟩ := h.vintage
  obtain ⟨k, htonnes, hmax⟩ := h.tonnes
  obtain ⟨flags, hflags, hflagsMax⟩ := (u32_computeSdgFlags host _).mpr h.sdgCobenefits
  obtain ⟨rating, hrating, hratingMax⟩ :=
    u32_optionalInt host 50 hdto.permanenceRating (by decide)
  obtain ⟨pct, hpct, hpctMax⟩ := u32_optionalInt host 10 hdto.bufferContributionPct (by decide)
  obtain ⟨type, htype, htypeMax⟩ := u32_optionalInt host 0 hdto.additionalityType (by decide)
  have hpos : 0 < k := by
    have hmin := hdto.tonnes.2
    rw [htonnes] at hmin
    exact_mod_cast (of_decide_eq_true hmin : (1 : ℚ) ≤ k)
  have hmax' : k < 2 ^ 127 := lt_of_le_of_lt hmax (by decide)
  refine acceptedOnChain_iff_encodes.mpr ⟨{
    projectId := ApiScVal.utf8 dto.projectId
    methodology := ApiScVal.utf8 dto.methodology
    vintageStart := (start / 1000).toNat
    vintageEnd := (stop / 1000).toNat
    tonnes := k
    geography := ApiScVal.utf8 dto.geography
    serialPrefix := ApiScVal.utf8 (generateSerialPrefix dto.projectId dto.methodology)
    sdgFlags := flags
    permanenceRating := rating
    bufferContributionPct := pct
    additionalityType := type
    ipfsHash := ApiScVal.utf8 ipfsHash
    status := .pending
    createdAt := 0
    tokenId := 0 }, ?_, CreditRegistry.validateMetadata_eq_ok.mpr ?_⟩
  · constructor
    case vintageStart =>
      exact u64_epochSeconds.mpr ⟨start, hstart, (Int.toNat_of_nonneg (by omega)).symm⟩
    case vintageEnd =>
      exact u64_epochSeconds.mpr ⟨stop, hstop, (Int.toNat_of_nonneg (by omega)).symm⟩
    case tonnes =>
      show host.i128 (.number dto.tonnes) = _
      rw [htonnes]
      exact StellarHost.i128_intCast hsdk (by omega) hmax'
    case sdgFlags => exact hflags
    case permanenceRating => exact hrating
    case bufferContributionPct => exact hpct
    case additionalityType => exact htype
    case status => exact ⟨0, StellarHost.u32_eq_ok.mpr rfl, rfl⟩
    case createdAt => exact (StellarHost.u64_intCast (z := 0) (by decide)).mpr rfl
    all_goals rfl
  · constructor
    case projectId =>
      exact mt (ApiScVal.utf8_eq_nil_iff _).mp (of_decide_eq_true hdto.projectId)
    case methodology =>
      exact mt (ApiScVal.utf8_eq_nil_iff _).mp (of_decide_eq_true hdto.methodology)
    case vintage =>
      show (start / 1000).toNat ≠ 0 ∧ (stop / 1000).toNat ≠ 0 ∧
        (start / 1000).toNat ≤ (stop / 1000).toNat
      omega
    case tonnes => exact ⟨hpos, hmax⟩
    case geography => exact (geography_iff hdto.geography.2.1 hdto.geography.2.2).mpr h.geography
    case sdgFlags => exact hflagsMax
    case bufferContributionPct => exact hpctMax
    case permanenceRating => exact hratingMax
    case additionalityType => exact htypeMax

/-- A request that is encoded and accepted fits. -/
theorem AcceptedOnChain.fits (hsdk : host.sdk.ReadsIntegers) (hdto : dto.Passes length)
    (h : dto.AcceptedOnChain host dates ipfsHash) : dto.FitsContract dates := by
  obtain ⟨m, henc, hvalid⟩ := acceptedOnChain_iff_encodes.mp h
  have hm := CreditRegistry.validateMetadata_eq_ok.mp hvalid
  constructor
  case vintage =>
    obtain ⟨start, hstart, hfirst⟩ := u64_epochSeconds.mp henc.vintageStart
    obtain ⟨stop, hstop, hlast⟩ := u64_epochSeconds.mp henc.vintageEnd
    have hvintage := hm.vintage
    exact ⟨start, stop, hstart, hstop, by omega, by omega⟩
  case tonnes =>
    have hread : host.i128 (.number dto.tonnes) = .ok m.tonnes := henc.tonnes
    exact ⟨m.tonnes, StellarHost.i128_pos hsdk hread hm.tonnes.1, hm.tonnes.2⟩
  case geography =>
    have hbytes : ApiScVal.utf8 dto.geography = m.geography := henc.geography
    refine (geography_iff hdto.geography.2.1 hdto.geography.2.2).mp ?_
    rw [hbytes]
    exact hm.geography
  case sdgCobenefits =>
    exact (u32_computeSdgFlags host _).mp ⟨m.sdgFlags, henc.sdgFlags, hm.sdgFlags⟩

end CreateCreditDto

namespace CreateCreditDto

/-- The metadata of a request that passes is encoded and accepted exactly when the request
`FitsContract`. -/
theorem acceptedOnChain_iff {T : Type} (host : StellarHost T) (hsdk : host.sdk.ReadsIntegers)
    (dates : DateParser) (length : TextLength) (dto : CreateCreditDto) (hdto : dto.Passes length)
    (ipfsHash : String) : dto.AcceptedOnChain host dates ipfsHash ↔ dto.FitsContract dates :=
  ⟨fun h => h.fits hsdk hdto, fun h => h.accepted hsdk hdto⟩

end CreateCreditDto

/-! ## The request of the API documentation -/

namespace Sample

/-- Two dates. -/
def vintageDates : DateParser where
  parse text :=
    if text = "2023-01-01" then some 1672531200000
    else if text = "2023-12-31" then some 1703980800000
    else none
  inRange := by
    intro s t h
    split_ifs at h <;> cases h <;> decide

def charCount : TextLength where
  count := String.length
  count_le _ := Nat.le_refl _
  count_ascii _ _ := rfl

/-- The examples of the properties, with the given goals. -/
def documentedRequest (goals : List JsNumber) : CreateCreditDto where
  projectId := "AMZ-REF-001"
  methodology := "VCS:VM0007"
  vintageStart := "2023-01-01"
  vintageEnd := "2023-12-31"
  tonnes := .finite (10000 : ℤ)
  geography := "BR"
  sdgCobenefits := some goals
  permanenceRating := some (.finite 87)
  bufferContributionPct := some (.finite 10)
  additionalityType := some (.finite 1)

/-- The request of the documentation passes, whatever integers its goals are. -/
theorem documentedRequest_passes {goals : List JsNumber}
    (h : goals.all ClassValidator.isInt = true) :
    (documentedRequest goals).Passes charCount := by
  constructor
  case geography =>
    have htext : (documentedRequest goals).geography = "BR" := rfl
    rw [htext]
    decide
  case tonnes => exact ⟨rfl, rfl⟩
  case sdgCobenefits =>
    rintro _ ⟨⟩
    exact h
  all_goals rfl

/-- It fits the contract when its goals are among the first fourteen. -/
theorem documentedRequest_fits {goals : List JsNumber}
    (h : ∀ g ∈ goals, CreditsService.sdgBit g < 14) :
    (documentedRequest goals).FitsContract vintageDates := by
  constructor
  case vintage => exact ⟨_, _, rfl, rfl, by decide, by decide⟩
  case tonnes => exact ⟨10000, rfl, by decide⟩
  case geography =>
    have hletters : "BR".toList = ['B', 'R'] := by decide
    show ∀ c ∈ "BR".toList, c.toNat < 128
    rw [hletters, List.forall_mem_cons, List.forall_mem_singleton]
    exact ⟨by decide, by decide⟩
  case sdgCobenefits => exact h

end Sample

namespace CreateCreditDto

open CreditsService

open Sample in
/-- With the goals 1 and 13 the request is accepted. -/
theorem acceptedOnChain_documented :
    (documentedRequest [.finite (1 : ℤ), .finite (13 : ℤ)]).AcceptedOnChain stellarHost
      vintageDates "bafy..." := by
  have hbits : ∀ g ∈ [JsNumber.finite (1 : ℤ), .finite (13 : ℤ)], sdgBit g < 14 := by
    simp only [List.forall_mem_cons, List.not_mem_nil, false_imp_iff, implies_true, and_true]
    rw [sdgBit_intCast (by decide), sdgBit_intCast (by decide)]
    decide
  have hpasses : (documentedRequest [.finite (1 : ℤ), .finite (13 : ℤ)]).Passes charCount :=
    documentedRequest_passes (by decide)
  exact (acceptedOnChain_iff stellarHost stellarHost_reads vintageDates charCount _ hpasses
    "bafy...").mpr (documentedRequest_fits hbits)

open Sample in
/-- With the goals of the documentation, 1, 13 and 15, the request passes and is refused. -/
theorem documented_not_accepted :
    ¬ ∀ (host : StellarHost Balances) (dates : DateParser) (length : TextLength)
      (dto : CreateCreditDto) (ipfsHash : String), host.sdk.ReadsIntegers → dto.Passes length →
        dto.AcceptedOnChain host dates ipfsHash := by
  intro h
  have hpasses : (documentedRequest [.finite (1 : ℤ), .finite (13 : ℤ), .finite (15 : ℤ)]).Passes
      charCount := documentedRequest_passes (by decide)
  have haccepted := h stellarHost vintageDates charCount _ "bafy..." stellarHost_reads hpasses
  have hbit := (haccepted.fits stellarHost_reads hpasses).sdgCobenefits (.finite (15 : ℤ))
    (by simp [documentedRequest])
  rw [sdgBit_intCast (by decide)] at hbit
  exact absurd hbit (by decide)

end CreateCreditDto

end CarbonVeritas
