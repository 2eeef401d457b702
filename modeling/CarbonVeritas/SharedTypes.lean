/-
# Shared contract types

The types, constants and error codes of `contracts/shared`, under the names of
the source.  Soroban's own types are read as follows:

* `u32` and `u64` values are natural numbers and `i128` values are integers; where
  the width of a type decides what the code does, the operation is written out
  (`u32Sub`, `i128CheckedAdd`);
* a Soroban `String` is its list of bytes, so that `is_empty` and `len` count bytes;
* a `BytesN<32>` is a 256-bit vector read as a big-endian number, so that its
  unsigned order is the lexicographic order of the bytes.
-/
import Mathlib.Algebra.Order.Ring.Int
import Mathlib.Tactic.Common

namespace CarbonVeritas

/-! ## Host types -/

/-- An address of the ledger: a classic account, or a deployed contract. -/
inductive Address where
  | account (key : ℕ)
  | contract (id : ℕ)
  deriving DecidableEq, Repr

/-- A Soroban `String`. -/
abbrev SorobanString := List UInt8

/-- `BytesN<32>`. -/
abbrev Bytes32 := BitVec 256

/-- `u32` subtraction as the release profile builds it, without overflow checks. -/
def u32Sub (a b : ℕ) : ℕ := (a + 2 ^ 32 - b) % 2 ^ 32

theorem u32Sub_of_le {a b : ℕ} (ha : a < 2 ^ 32) (hb : b ≤ a) : u32Sub a b = a - b := by
  unfold u32Sub
  rw [show a + 2 ^ 32 - b = (a - b) + 2 ^ 32 by omega, Nat.add_mod_right]
  exact Nat.mod_eq_of_lt (by omega)

theorem u32Sub_le {a b : ℕ} (hb : b ≤ a) : u32Sub a b ≤ a - b := by
  unfold u32Sub
  rw [show a + 2 ^ 32 - b = (a - b) + 2 ^ 32 by omega, Nat.add_mod_right]
  exact Nat.mod_le _ _

/-- `u64` subtraction as the release profile builds it, without overflow checks. -/
def u64Sub (a b : ℕ) : ℕ := (a + 2 ^ 64 - b) % 2 ^ 64

theorem u64Sub_le {a b : ℕ} (hb : b ≤ a) : u64Sub a b ≤ a - b := by
  unfold u64Sub
  rw [show a + 2 ^ 64 - b = (a - b) + 2 ^ 64 by omega, Nat.add_mod_right]
  exact Nat.mod_le _ _

/-- `u32` addition as the release profile builds it, without overflow checks. -/
def u32Add (a b : ℕ) : ℕ := (a + b) % 2 ^ 32

/-- `u32::saturating_add`. -/
def u32SaturatingAdd (a b : ℕ) : ℕ := min (a + b) (2 ^ 32 - 1)

/-- `u32::saturating_sub`. -/
def u32SaturatingSub (a b : ℕ) : ℕ := a - b

/-- `i128` subtraction as the release profile builds it, without overflow checks. -/
def i128Sub (a b : ℤ) : ℤ := (a - b).bmod (2 ^ 128)

/-- `i128` multiplication as the release profile builds it, without overflow checks. -/
def i128Mul (a b : ℤ) : ℤ := (a * b).bmod (2 ^ 128)

theorem i128Mul_of_lt {a b : ℤ} (hnonneg : 0 ≤ a * b) (hlt : a * b < 2 ^ 127) :
    i128Mul a b = a * b := by
  unfold i128Mul
  exact Int.bmod_eq_of_le_mul_two (by omega) (by omega)

/-- A product that leaves `i128` comes back smaller by a multiple of `2^128`. -/
theorem i128Mul_of_le {a b : ℤ} (hle : 2 ^ 127 ≤ a * b) :
    i128Mul a b ≤ a * b - 2 ^ 128 := by
  unfold i128Mul
  have hlt : (a * b).bmod (2 ^ 128) < (2 ^ 128 + 1) / 2 := Int.bmod_lt (by decide)
  have hbmod : (a * b).bmod (2 ^ 128) % (2 ^ 128 : ℤ) = a * b % (2 ^ 128 : ℤ) := by
    exact_mod_cast @Int.bmod_emod (a * b) (2 ^ 128)
  omega

theorem i128Mul_tdiv_of_lt {a b : ℤ} (hnonneg : 0 ≤ a * b) (hlt : a * b < 2 ^ 127) (d : ℤ) :
    (i128Mul a b).tdiv d = a * b / d := by
  rw [i128Mul_of_lt hnonneg hlt, Int.tdiv_eq_ediv_of_nonneg hnonneg]

/-- Dividing does not bring a wrapped product back to the exact quotient. -/
theorem i128Mul_tdiv_lt {a b d : ℤ} (hle : 2 ^ 127 ≤ a * b) (hpos : 0 < d) (hd : d ≤ 2 ^ 127) :
    (i128Mul a b).tdiv d < a * b / d := by
  have hwrap := i128Mul_of_le hle
  rcases le_total 0 (i128Mul a b) with hsign | hsign
  · have hbelow : i128Mul a b ≤ a * b + -1 * d := by omega
    have hquot := Int.ediv_le_ediv hpos hbelow
    rw [Int.add_mul_ediv_right _ _ (by omega)] at hquot
    rw [Int.tdiv_eq_ediv_of_nonneg hsign]
    omega
  · have hneg : 0 ≤ (-i128Mul a b).tdiv d := Int.tdiv_nonneg (by omega) (by omega)
    have hquot : 1 ≤ a * b / d := (Int.le_ediv_iff_mul_le hpos).mpr (by omega)
    rw [Int.neg_tdiv] at hneg
    omega

/-- **Exactness of one product.** -/
theorem i128Mul_tdiv_eq_iff {a b d : ℤ} (hnonneg : 0 ≤ a * b) (hpos : 0 < d)
    (hd : d ≤ 2 ^ 127) : (i128Mul a b).tdiv d = a * b / d ↔ a * b < 2 ^ 127 := by
  constructor
  · intro heq
    by_contra hge
    have hlt := i128Mul_tdiv_lt (Int.not_lt.mp hge) hpos hd
    omega
  · intro hlt
    exact i128Mul_tdiv_of_lt hnonneg hlt d

theorem i128Sub_of_range {a b : ℤ} (hnonneg : 0 ≤ a - b) (hlt : a - b < 2 ^ 127) :
    i128Sub a b = a - b := by
  unfold i128Sub
  exact Int.bmod_eq_of_le_mul_two (by omega) (by omega)

/-- `i128::checked_add`. -/
def i128CheckedAdd (a b : ℤ) : Option ℤ :=
  if -2 ^ 127 ≤ a + b ∧ a + b < 2 ^ 127 then some (a + b) else none

/-- `i128::checked_sub`. -/
def i128CheckedSub (a b : ℤ) : Option ℤ :=
  if -2 ^ 127 ≤ a - b ∧ a - b < 2 ^ 127 then some (a - b) else none

theorem i128CheckedAdd_eq_some {a b c : ℤ} (h : i128CheckedAdd a b = some c) : c = a + b := by
  unfold i128CheckedAdd at h
  split at h
  · exact (Option.some.inj h).symm
  · cases h

theorem i128CheckedSub_eq_some {a b c : ℤ} (h : i128CheckedSub a b = some c) : c = a - b := by
  unfold i128CheckedSub at h
  split at h
  · exact (Option.some.inj h).symm
  · cases h

/-! ## Constants -/

def MAX_VERIFIERS : ℕ := 20
def PROTOCOL_FEE_BPS : ℕ := 50
def APPROVAL_WINDOW_SECONDS : ℕ := 604800
def MAX_TONNES : ℤ := 1000000000000
def MIN_STAKE_AMOUNT : ℤ := 1000000000
def COOLDOWN_PERIOD_SECONDS : ℕ := 2592000
def MAX_BATCH_RETIRE : ℕ := 100
def MAX_LISTINGS_PAGE : ℕ := 50

theorem minStakeAmount_pos : 0 < MIN_STAKE_AMOUNT := by decide

/-! ## Credits -/

inductive CreditStatus where
  | pending
  | active
  | retired
  | rejected
  | bridged
  deriving DecidableEq, Repr

structure CreditMetadata where
  projectId : SorobanString
  methodology : SorobanString
  vintageStart : ℕ
  vintageEnd : ℕ
  tonnes : ℤ
  geography : SorobanString
  serialPrefix : SorobanString
  sdgFlags : ℕ
  permanenceRating : ℕ
  bufferContributionPct : ℕ
  additionalityType : ℕ
  ipfsHash : SorobanString
  status : CreditStatus
  createdAt : ℕ
  tokenId : Bytes32
  deriving DecidableEq, Repr

structure ApprovalRecord where
  verifier : Address
  approved : Bool
  timestamp : ℕ
  comments : SorobanString
  deriving DecidableEq, Repr

structure ContractConfig where
  admin : Address
  verifierThreshold : ℕ
  verifierQuorum : ℕ
  approvalWindow : ℕ
  protocolFeeBps : ℕ
  bufferPoolPct : ℕ
  deriving DecidableEq, Repr

/-! ## Offers and retirements -/

inductive OfferStatus where
  | active
  | filled
  | cancelled
  | expired
  deriving DecidableEq, Repr

structure Offer where
  offerId : ℕ
  seller : Address
  creditId : ℕ
  pricePerTonne : ℤ
  amount : ℤ
  filled : ℤ
  currency : Address
  expiry : Option ℕ
  createdAt : ℕ
  status : OfferStatus
  deriving DecidableEq, Repr

structure RetirementRecord where
  creditId : ℕ
  retiredBy : Address
  beneficiary : SorobanString
  reason : SorobanString
  accountingPeriod : SorobanString
  tonnesRetired : ℤ
  txHash : Bytes32
  ledgerSequence : ℕ
  timestamp : ℕ
  certificateHash : Bytes32
  deriving DecidableEq, Repr

/-! ## Verifiers -/

structure Verifier where
  address : Address
  totalStaked : ℤ
  reputationScore : ℕ
  approvalCount : ℕ
  rejectionCount : ℕ
  lastHeartbeat : ℕ
  registeredAt : ℕ
  deriving DecidableEq, Repr

/-! ## Error codes -/

/-- The error codes that the modelled contracts raise. -/
inductive Error where
  | notAuthorized
  | notFound
  | alreadyExists
  | invalidInput
  | creditNotFound
  | creditNotPending
  | creditNotActive
  | creditAlreadyRetired
  | creditNotOwned
  | alreadyVoted
  | offerNotFound
  | offerExpired
  | offerAlreadyFilled
  | insufficientAmount
  | offerNotCancellable
  | invalidProof
  | registryNotFound
  | alreadyBridged
  | verifierNotFound
  | verifierAlreadyRegistered
  | insufficientStake
  | cooldownActive
  deriving DecidableEq, Repr

end CarbonVeritas
