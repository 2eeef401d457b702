/-
# Exact shares under machine arithmetic

What a distribution transfers, against the integers that the split asks for.  A
configuration asks for the basis points of its beneficiaries to sum to 10000, for the fee
`⌊amount · fee_bps / 10000⌋` and for the share `⌊(amount - fee) · bps / 10000⌋` of each
beneficiary.

The code computes in `u32` and `i128`, where sums and products wrap.
`distribute_exact_iff` says when that makes no difference: when none of the sums and products
leaves its type.  A wrapped product is never mistaken for the exact one, for it is smaller
by at least `2^128` (`portion_eq_iff`).
-/
import CarbonVeritas.RevenueSplit
import CarbonVeritas.Token
import Mathlib.Algebra.BigOperators.Group.List.Basic
import Mathlib.Tactic.Linarith

namespace CarbonVeritas

namespace RevenueSplit

/-! ## The machine's sums and products -/

/-- The sum of the shares wraps at `2^32`. -/
theorem foldl_u32Add (total : ℕ) (l : List (Address × ℕ)) (htotal : total < 2 ^ 32) :
    l.foldl (fun total b => u32Add total b.2) total = (total + (l.map Prod.snd).sum) % 2 ^ 32 := by
  induction l generalizing total with
  | nil => simpa using (Nat.mod_eq_of_lt htotal).symm
  | cons b rest ih =>
      have hnext : u32Add total b.2 < 2 ^ 32 := Nat.mod_lt _ (by decide)
      rw [List.foldl_cons, ih _ hnext, List.map_cons, List.sum_cons, u32Add, Nat.mod_add_mod,
        Nat.add_assoc]

/-- The accumulator of `configure` is the sum of the basis points modulo `2^32`. -/
theorem totalBps_eq (l : List (Address × ℕ)) : totalBps l = (l.map Prod.snd).sum % 2 ^ 32 := by
  unfold totalBps
  rw [foldl_u32Add 0 l (by decide), Nat.zero_add]

/-- An accepted list sums to 10000 exactly when its sum fits. -/
theorem sum_eq_iff_of_totalBps {l : List (Address × ℕ)} (h : totalBps l = 10000) :
    (l.map Prod.snd).sum = 10000 ↔ (l.map Prod.snd).sum < 2 ^ 32 := by
  rw [totalBps_eq] at h
  constructor
  · intro hsum
    omega
  · intro hlt
    rwa [Nat.mod_eq_of_lt hlt] at h

/-- `portion` in unbounded integers. -/
def exactPortion (amount : ℤ) (bps : ℕ) : ℤ := amount * bps / 10000

/-- A portion without overflow is exact. -/
theorem portion_of_lt {amount : ℤ} {bps : ℕ} (hnonneg : 0 ≤ amount)
    (hlt : amount * bps < 2 ^ 127) : portion amount bps = exactPortion amount bps :=
  i128Mul_tdiv_of_lt (Int.mul_nonneg hnonneg (Int.natCast_nonneg bps)) hlt 10000

/-- A product that overflows gives less than the exact portion. -/
theorem portion_lt_of_le {amount : ℤ} {bps : ℕ} (hle : 2 ^ 127 ≤ amount * bps) :
    portion amount bps < exactPortion amount bps :=
  i128Mul_tdiv_lt hle (by decide) (by decide)

/-- **Exactness of one share.** -/
theorem portion_eq_iff {amount : ℤ} {bps : ℕ} (hnonneg : 0 ≤ amount) :
    portion amount bps = exactPortion amount bps ↔ amount * bps < 2 ^ 127 :=
  i128Mul_tdiv_eq_iff (Int.mul_nonneg hnonneg (Int.natCast_nonneg bps)) (by decide) (by decide)

/-- No portion is more than the exact one. -/
theorem portion_le_exact {amount : ℤ} {bps : ℕ} (hnonneg : 0 ≤ amount) :
    portion amount bps ≤ exactPortion amount bps := by
  rcases lt_or_ge (amount * bps) (2 ^ 127) with hlt | hle
  · exact le_of_eq (portion_of_lt hnonneg hlt)
  · exact le_of_lt (portion_lt_of_le hle)

/-- No basis points, no portion. -/
@[simp] theorem portion_zero (amount : ℤ) : portion amount 0 = 0 := by
  simp [portion, i128Mul]

/-! ## Lists of amounts due -/

/-- Two lists of amounts due to the same addresses, where what is positive in the first is
positive in the second. -/
def Within : List (Address × ℤ) → List (Address × ℤ) → Prop :=
  List.Forall₂ fun c e => c.1 = e.1 ∧ (0 < c.2 → 0 < e.2)

/-- The first list has no more positive dues than the second. -/
theorem Within.length_le {l m : List (Address × ℤ)} (h : Within l m) :
    (l.filter fun d => 0 < d.2).length ≤ (m.filter fun d => 0 < d.2).length := by
  induction h with
  | nil => exact le_rfl
  | @cons c e l m hhead htail ih =>
      by_cases hc : 0 < c.2
      · have he : 0 < e.2 := hhead.2 hc
        simpa [hc, he] using ih
      · by_cases he : 0 < e.2
        · simp only [List.filter_cons, hc, he, decide_false, decide_true, if_true,
            List.length_cons, Bool.false_eq_true, if_false]
          omega
        · simpa [hc, he] using ih

/-- If the positive amounts of two such lists are the same, then every amount that is
positive in the second list is the one in the first. -/
theorem Within.eq_of_filter_eq {l m : List (Address × ℤ)} (h : Within l m)
    (heq : (l.filter fun d => 0 < d.2) = m.filter fun d => 0 < d.2) :
    List.Forall₂ (fun c e => 0 < e.2 → c.2 = e.2) l m := by
  induction h with
  | nil => exact List.Forall₂.nil
  | @cons c e l m hhead htail ih =>
      by_cases hc : 0 < c.2
      · have he : 0 < e.2 := hhead.2 hc
        simp only [List.filter_cons, hc, he, decide_true, if_true, List.cons.injEq] at heq
        exact List.Forall₂.cons (fun _ => by rw [heq.1]) (ih heq.2)
      · by_cases he : 0 < e.2
        · -- the second list would have one positive amount more
          have hle : (l.filter fun d => 0 < d.2).length ≤ (m.filter fun d => 0 < d.2).length :=
            Within.length_le htail
          have hlen := congrArg List.length heq
          simp only [List.filter_cons, hc, he, decide_false, decide_true, if_true,
            List.length_cons, Bool.false_eq_true, if_false] at hlen
          omega
        · simp only [List.filter_cons, hc, he, decide_false, Bool.false_eq_true, if_false] at heq
          exact List.Forall₂.cons (fun h => absurd h he) (ih heq)

/-- The transfers tell which dues are positive. -/
theorem positiveTransfers_inj {asset caller : Address} {l m : List (Address × ℤ)}
    (h : positiveTransfers asset caller l = positiveTransfers asset caller m) :
    (l.filter fun d => 0 < d.2) = m.filter fun d => 0 < d.2 := by
  refine List.map_injective_iff.mpr ?_ h
  rintro ⟨a, x⟩ ⟨b, y⟩ hab
  simp only [Transfer.mk.injEq] at hab
  exact Prod.ext hab.2.2.1 hab.2.2.2

/-- The transfers add up to the dues. -/
theorem sum_positiveTransfers (asset caller : Address) (due : List (Address × ℤ))
    (hnonneg : ∀ d ∈ due, 0 ≤ d.2) :
    ((positiveTransfers asset caller due).map Transfer.amount).sum = (due.map Prod.snd).sum := by
  induction due with
  | nil => rfl
  | cons d due ih =>
      have hd := hnonneg d List.mem_cons_self
      have htail := ih fun x hx => hnonneg x (List.mem_cons_of_mem _ hx)
      rw [positiveTransfers_cons, List.map_append, List.sum_append, htail, List.map_cons,
        List.sum_cons]
      by_cases hpos : 0 < d.2
      · simp [positiveTransfers, hpos]
      · have hzero : d.2 = 0 := by omega
        simp [positiveTransfers, hzero]

/-! ## The exact split -/

/-- What the split asks for, in unbounded integers. -/
def exactDue (config : RevenueConfig) (feeAddress : Address) (amount : ℤ) :
    List (Address × ℤ) :=
  (feeAddress, exactPortion amount config.protocolFeeBps) ::
    config.beneficiaries.map fun b =>
      (b.1, exactPortion (amount - exactPortion amount config.protocolFeeBps) b.2)

/-- The shares are complete, the transfers are those of the exact fee and shares, and
together they take no more than the amount. -/
structure ExactSplit (config : RevenueConfig) (feeAddress asset caller : Address) (amount : ℤ)
    (made : List Transfer) : Prop where
  complete : (config.beneficiaries.map Prod.snd).sum = 10000
  exact : made = positiveTransfers asset caller (exactDue config feeAddress amount)
  taken_le : (made.map Transfer.amount).sum ≤ amount

/-- No sum and no product of the distribution leaves its machine type. -/
structure Fits (config : RevenueConfig) (amount : ℤ) : Prop where
  total : (config.beneficiaries.map Prod.snd).sum < 2 ^ 32
  fee : amount * config.protocolFeeBps < 2 ^ 127
  shares : ∀ b ∈ config.beneficiaries,
    (amount - exactPortion amount config.protocolFeeBps) * b.2 < 2 ^ 127

section Amounts

variable {config : RevenueConfig} {feeAddress : Address} {amount : ℤ}

/-- An exact portion is not negative. -/
theorem exactPortion_nonneg {x : ℤ} (hx : 0 ≤ x) (bps : ℕ) : 0 ≤ exactPortion x bps :=
  Int.ediv_nonneg (Int.mul_nonneg hx (Int.natCast_nonneg bps)) (by decide)

/-- The exact shares of a net amount take at most what their basis points allow. -/
theorem sum_exactPortion_le (net : ℤ) (l : List (Address × ℕ)) :
    10000 * ((l.map fun b => exactPortion net b.2).sum) ≤ net * ((l.map Prod.snd).sum : ℕ) := by
  induction l with
  | nil => simp
  | cons b rest ih =>
      have hb : 10000 * exactPortion net b.2 ≤ net * b.2 := Int.mul_ediv_self_le (by decide)
      rw [List.map_cons, List.sum_cons, List.map_cons, List.sum_cons, Nat.cast_add, mul_add,
        mul_add]
      exact add_le_add hb ih

/-- What the fee leaves is not negative, and large whenever the product of the fee wraps. -/
theorem net_bounds (hpos : 0 < amount) :
    0 ≤ amount - exactPortion amount PROTOCOL_FEE_BPS ∧
      amount - exactPortion amount PROTOCOL_FEE_BPS ≤ amount ∧
      (2 ^ 127 ≤ amount * PROTOCOL_FEE_BPS →
        10000 ≤ amount - exactPortion amount PROTOCOL_FEE_BPS) := by
  unfold exactPortion PROTOCOL_FEE_BPS
  omega

/-- No exact due is negative. -/
theorem exactDue_nonneg (hpos : 0 < amount) (hfee : config.protocolFeeBps = PROTOCOL_FEE_BPS) :
    ∀ d ∈ exactDue config feeAddress amount, 0 ≤ d.2 := by
  have hnet := (net_bounds hpos).1
  unfold exactDue
  rw [hfee]
  intro d hd
  rcases List.mem_cons.mp hd with rfl | hd
  · exact exactPortion_nonneg hpos.le _
  · obtain ⟨b, -, rfl⟩ := List.mem_map.mp hd
    exact exactPortion_nonneg hnet b.2

/-- The exact split of a complete list takes at most the amount. -/
theorem exact_taken_le {asset caller : Address} (hpos : 0 < amount)
    (hfee : config.protocolFeeBps = PROTOCOL_FEE_BPS)
    (hcomplete : (config.beneficiaries.map Prod.snd).sum = 10000) :
    ((positiveTransfers asset caller (exactDue config feeAddress amount)).map
      Transfer.amount).sum ≤ amount := by
  have hshares := sum_exactPortion_le (amount - exactPortion amount config.protocolFeeBps)
    config.beneficiaries
  rw [hcomplete] at hshares
  rw [sum_positiveTransfers _ _ _ (exactDue_nonneg hpos hfee)]
  have hsum : ((exactDue config feeAddress amount).map Prod.snd).sum
      = exactPortion amount config.protocolFeeBps + (config.beneficiaries.map fun b =>
          exactPortion (amount - exactPortion amount config.protocolFeeBps) b.2).sum := by
    unfold exactDue
    rw [List.map_cons, List.sum_cons, List.map_map]
    rfl
  rw [hsum]
  push_cast at hshares
  linarith

/-- What the code computes as due is positive only where the exact amount is. -/
theorem computedDue_within (hpos : 0 < amount) (hlt : amount < 2 ^ 127)
    (hfee : config.protocolFeeBps = PROTOCOL_FEE_BPS) :
    Within (computedDue config feeAddress amount) (exactDue config feeAddress amount) := by
  obtain ⟨hnet, hnetle, hlarge⟩ := net_bounds hpos
  unfold Within computedDue exactDue
  rw [hfee]
  refine List.Forall₂.cons ⟨rfl, fun h => lt_of_lt_of_le h (portion_le_exact hpos.le)⟩ ?_
  rw [List.forall₂_map_left_iff, List.forall₂_map_right_iff, List.forall₂_same]
  intro b _
  refine ⟨rfl, fun hshare => ?_⟩
  dsimp only at hshare ⊢
  rcases lt_or_ge (amount * PROTOCOL_FEE_BPS) (2 ^ 127) with hfits | hwraps
  · rw [portion_of_lt hpos.le hfits, i128Sub_of_range hnet (by omega)] at hshare
    exact lt_of_lt_of_le hshare (portion_le_exact hnet)
  · -- the net amount of the code is of no use here, but the share has basis points
    have hb : b.2 ≠ 0 := by
      intro hzero
      rw [hzero, portion_zero] at hshare
      omega
    have hone : 10000 * 1 ≤ (amount - exactPortion amount PROTOCOL_FEE_BPS) * (b.2 : ℤ) :=
      mul_le_mul (hlarge hwraps) (by omega) (by decide) hnet
    unfold exactPortion at hone ⊢
    omega

/-- **Exactness of the amounts due.**  The code transfers the exact fee and shares if and only
if none of its products wraps. -/
theorem transfers_exact_iff (feeAddress asset caller : Address) (hpos : 0 < amount)
    (hlt : amount < 2 ^ 127) (hfee : config.protocolFeeBps = PROTOCOL_FEE_BPS) :
    positiveTransfers asset caller (computedDue config feeAddress amount)
        = positiveTransfers asset caller (exactDue config feeAddress amount) ↔
      amount * config.protocolFeeBps < 2 ^ 127 ∧ ∀ b ∈ config.beneficiaries,
        (amount - exactPortion amount config.protocolFeeBps) * b.2 < 2 ^ 127 := by
  obtain ⟨hnet, hnetle, hlarge⟩ := net_bounds hpos
  constructor
  · intro heq
    have hsame := (computedDue_within hpos hlt hfee).eq_of_filter_eq (positiveTransfers_inj heq)
    unfold computedDue exactDue at hsame
    rw [hfee] at hsame ⊢
    obtain ⟨hhead, htail⟩ := List.forall₂_cons.mp hsame
    rw [List.forall₂_map_left_iff, List.forall₂_map_right_iff, List.forall₂_same] at htail
    have hfits : amount * PROTOCOL_FEE_BPS < 2 ^ 127 := by
      -- a wrapped product is too small, and its share below the exact one
      by_contra hwraps
      have hle : 2 ^ 127 ≤ amount * PROTOCOL_FEE_BPS := Int.not_lt.mp hwraps
      have hbig : 0 < exactPortion amount PROTOCOL_FEE_BPS := by
        unfold exactPortion
        omega
      have hne := portion_lt_of_le hle
      have := hhead hbig
      omega
    refine ⟨hfits, fun b hb => ?_⟩
    by_contra hwraps
    have hle : 2 ^ 127 ≤ (amount - exactPortion amount PROTOCOL_FEE_BPS) * b.2 :=
      Int.not_lt.mp hwraps
    have hbig : 0 < exactPortion (amount - exactPortion amount PROTOCOL_FEE_BPS) b.2 := by
      unfold exactPortion at hle ⊢
      omega
    have hshare := htail b hb hbig
    rw [portion_of_lt hpos.le hfits, i128Sub_of_range hnet (by omega)] at hshare
    have := portion_lt_of_le hle
    omega
  · rintro ⟨hfits, hshares⟩
    have hdue : computedDue config feeAddress amount = exactDue config feeAddress amount := by
      unfold computedDue exactDue
      rw [hfee] at hfits hshares ⊢
      rw [portion_of_lt hpos.le hfits, i128Sub_of_range hnet (by omega)]
      congr 1
      refine List.map_congr_left fun b hb => ?_
      rw [portion_of_lt hnet (hshares b hb)]
    rw [hdue]

end Amounts

/-! ## Distributions -/

/-- The token with a record of the transfers it has made. -/
def recording {T : Type} (host : RevenueHost T) : RevenueHost (T × List Transfer) where
  tokenTransfer t asset fromAddr toAddr x :=
    (host.tokenTransfer t.1 asset fromAddr toAddr x).map fun t' =>
      (t', t.2 ++ [{ asset := asset, fromAddr := fromAddr, toAddr := toAddr, amount := x }])

/-- A recording host makes the same transfers, and lists them. -/
theorem transferAll_recording {T : Type} (host : RevenueHost T) (t : T)
    (log made : List Transfer) :
    transferAll (recording host) (t, log) made
      = (transferAll host t made).map fun t' => (t', log ++ made) := by
  induction made generalizing t log with
  | nil => simp
  | cons x made ih =>
      rw [transferAll_cons, transferAll_cons]
      cases hx : host.tokenTransfer t x.asset x.fromAddr x.toAddr x.amount with
      | none => simp [recording, hx]
      | some t₁ =>
          have hrec : (recording host).tokenTransfer (t, log) x.asset x.fromAddr x.toAddr x.amount
              = some (t₁, log ++ [x]) := by
            simp [recording, hx]
          rw [hrec, Option.bind_some, Option.bind_some, ih, List.append_assoc,
            List.singleton_append]

section Distribution

variable {T : Type} {host : RevenueHost T} {env : Env} {s : RevenueSplit} {t t' : T}
  {caller asset : Address} {projectId : SorobanString} {amount : ℤ} {made : List Transfer}

/-- With the record, a distribution returns what it returns without it. -/
theorem distribute_recording :
    (∃ made, distribute (recording host) env s (t, []) caller projectId asset amount
        = .ok (true, t', made)) ↔
      distribute host env s t caller projectId asset amount = .ok (true, t') := by
  simp only [distribute_eq_ok, transferAll_recording, Option.map_eq_some_iff, Prod.mk.injEq]
  constructor
  · rintro ⟨made, hauth, -, config, feeAddress, hconfig, hfee, t₁, htransfers, rfl, -⟩
    exact ⟨hauth, trivial, config, feeAddress, hconfig, hfee, htransfers⟩
  · rintro ⟨hauth, -, config, feeAddress, hconfig, hfee, htransfers⟩
    exact ⟨_, hauth, trivial, config, feeAddress, hconfig, hfee, t', htransfers, rfl, rfl⟩

/-- The transfers of a distribution are those that the code computes as due. -/
theorem made_of_distribute
    (h : distribute (recording host) env s (t, []) caller projectId asset amount
      = .ok (true, t', made)) {config : RevenueConfig} {feeAddress : Address}
    (hconfig : s.configs projectId = some config) (hfee : s.feeAddr = some feeAddress) :
    made = positiveTransfers asset caller (computedDue config feeAddress amount) := by
  obtain ⟨-, -, config', feeAddress', hconfig', hfee', htransfers⟩ := distribute_eq_ok.mp h
  obtain rfl := Option.some.inj (hconfig.symm.trans hconfig')
  obtain rfl := Option.some.inj (hfee.symm.trans hfee')
  rw [transferAll_recording, Option.map_eq_some_iff] at htransfers
  obtain ⟨_, -, hpair⟩ := htransfers
  exact (Prod.mk.inj hpair).2.symm

end Distribution

/-- **Exact shares.**  After any calls of the contract, a distribution of a stored
configuration is the exact split if and only if nothing it computes leaves its machine
type. -/
theorem distribute_exact_iff {T : Type} (host : RevenueHost T) (calls : List (Env × T × Call))
    (env : Env) (t t' : T) (caller asset feeAddress : Address) (projectId : SorobanString)
    (amount : ℤ) (config : RevenueConfig) (made : List Transfer)
    (hconfig : (Transition.run (apply host) {} calls).configs projectId = some config)
    (hfee : (Transition.run (apply host) {} calls).feeAddr = some feeAddress)
    (hpos : 0 < amount) (hlt : amount < 2 ^ 127)
    (hdistribute : distribute (recording host) env (Transition.run (apply host) {} calls) (t, [])
      caller projectId asset amount = .ok (true, t', made)) :
    ExactSplit config feeAddress asset caller amount made ↔ Fits config amount := by
  have hchecked := run_configsChecked host calls projectId config hconfig
  have hmade := made_of_distribute hdistribute hconfig hfee
  have hiff := transfers_exact_iff feeAddress asset caller hpos hlt hchecked.feeBps
  constructor
  · intro h
    obtain ⟨hfeeFits, hshares⟩ := hiff.mp (hmade.symm.trans h.exact)
    exact ⟨(sum_eq_iff_of_totalBps hchecked.total).mp h.complete, hfeeFits, hshares⟩
  · intro h
    have hcomplete := (sum_eq_iff_of_totalBps hchecked.total).mpr h.total
    have hexact := hmade.trans (hiff.mpr ⟨h.fee, h.shares⟩)
    refine ⟨hcomplete, hexact, ?_⟩
    rw [hexact]
    exact exact_taken_le hpos hchecked.feeBps hcomplete

end RevenueSplit

/-! ### Two lists on the sample token -/

namespace Sample

open RevenueSplit

def revenueHost : RevenueHost Balances where
  tokenTransfer := transfer

/-- The payer, account 2, holds ten thousand million. -/
def payerBalances : Balances := fun _ holder => if holder = .account 2 then 10000000000 else 0

/-- The admin and the payer have signed. -/
def revenueEnv : Env where
  signers := [.account 0, .account 2]
  invoker := none
  timestamp := 0
  sequence := 0

/-- The calls that set up the contract and configure one project. -/
def revenueSetup (beneficiaries : List (Address × ℕ)) : List (Env × Balances × Call) :=
  [(revenueEnv, payerBalances, .init (.account 0) (.account 1)),
    (revenueEnv, payerBalances, .configure (.account 0) [80] beneficiaries)]

def evenShares : List (Address × ℕ) := [(.account 3, 6000), (.account 4, 4000)]

/-- Basis points that sum to `2^32 + 10000`. -/
def wrappingShares : List (Address × ℕ) := [(.account 3, 4294967295), (.account 4, 10001)]

/-- A transfer of the payer. -/
def payment (toAddr : Address) (x : ℤ) : Transfer :=
  { asset := .contract 7, fromAddr := .account 2, toAddr := toAddr, amount := x }

end Sample

open RevenueSplit Sample in
/-- The shares of the example split 10000 exactly. -/
theorem distribute_exact_iff_evenShares :
    ExactSplit (configured [80] evenShares) (.account 1) (.contract 7) (.account 2) 10000
        [payment (.account 1) 50, payment (.account 3) 5970, payment (.account 4) 3980] ↔
      Fits (configured [80] evenShares) 10000 :=
  distribute_exact_iff revenueHost (revenueSetup evenShares) revenueEnv payerBalances _
    (.account 2) (.contract 7) (.account 1) [80] 10000 _ _ rfl rfl (by decide) (by decide) rfl

open RevenueSplit Sample in
/-- A list that wraps to 10000 is accepted, and a distribution under it is not exact. -/
theorem distribute_not_exact :
    ¬ ∀ (T : Type) (host : RevenueHost T) (calls : List (Env × T × Call)) (env : Env) (t t' : T)
      (caller asset feeAddress : Address) (projectId : SorobanString) (amount : ℤ)
      (config : RevenueConfig) (made : List Transfer),
      (Transition.run (apply host) {} calls).configs projectId = some config →
      (Transition.run (apply host) {} calls).feeAddr = some feeAddress →
      0 < amount → amount < 2 ^ 127 →
      distribute (recording host) env (Transition.run (apply host) {} calls) (t, [])
        caller projectId asset amount = .ok (true, t', made) →
      ExactSplit config feeAddress asset caller amount made := by
  intro h
  have hsplit := h Balances revenueHost (revenueSetup wrappingShares) revenueEnv payerBalances _
    (.account 2) (.contract 7) (.account 1) [80] 10000 (configured [80] wrappingShares)
    [payment (.account 1) 50, payment (.account 3) 4273492458, payment (.account 4) 9950]
    rfl rfl (by decide) (by decide) rfl
  exact absurd hsplit.complete (by decide)

end CarbonVeritas
