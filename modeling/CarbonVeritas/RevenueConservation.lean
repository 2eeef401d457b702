/-
# Money in and money out of a distribution

A distribution with the `i128` of the code read as the integers: the products are not cut to
128 bits, and the quotient is still the truncating one of the language.

* `distribute_conserves`: the fee and the shares a distribution transfers are the floors that
  the split asks for, they take no more than the amount, and they leave less than one unit for
  each beneficiary.  A distribution of which one transfer is refused leaves the tokens alone.
* `distribute_exact_eq`: where no product leaves its type this is the distribution of the
  contract.
-/
import CarbonVeritas.RevenueShares

namespace CarbonVeritas

/-- A reading of the products and differences of `i128`. -/
structure I128Reading where
  mul : ℤ → ℤ → ℤ
  sub : ℤ → ℤ → ℤ

namespace I128Reading

/-- What the release profile computes. -/
def wrapping : I128Reading where
  mul := i128Mul
  sub := i128Sub

/-- The integers. -/
def exact : I128Reading where
  mul x y := x * y
  sub x y := x - y

end I128Reading

namespace RevenueSplit

/-! ## The distribution under a reading -/

namespace Reading

variable {T : Type} (A : I128Reading) (host : RevenueHost T) (env : Env) (s : RevenueSplit) (t : T)

/-- `amount * (bps as i128) / 10000` -/
def portion (amount : ℤ) (bps : ℕ) : ℤ := (A.mul amount bps).tdiv 10000

/-- The loop of `distribute` over the beneficiaries. -/
def payShares (asset caller : Address) (netAmount : ℤ) : List (Address × ℕ) → T → Result T
  | [], t => pure t
  | (beneficiary, bps) :: rest, t => do
      let t ← transferPositive host t asset caller beneficiary (portion A netAmount bps)
      payShares asset caller netAmount rest t

def distribute (caller : Address) (projectId : SorobanString) (asset : Address) (amount : ℤ) :
    Result (Bool × T) := do
  env.requireAuth caller
  let config ← orPanic (s.configs projectId) (.error .notFound)
  let feeAddress ← orPanic s.feeAddr .unwrap
  let fee := portion A amount config.protocolFeeBps
  let netAmount := A.sub amount fee
  let t ← transferPositive host t asset caller feeAddress fee
  let t ← payShares A host asset caller netAmount config.beneficiaries t
  return (true, t)

/-- The tokens after an invocation of `distribute`: one that panics is rolled back. -/
def tokensAfter (caller : Address) (projectId : SorobanString) (asset : Address) (amount : ℤ) :
    T :=
  match distribute A host env s t caller projectId asset amount with
  | .ok (_, t') => t'
  | .error _ => t

/-- The fee and the shares that the loop computes. -/
def computedDue (config : RevenueConfig) (feeAddress : Address) (amount : ℤ) :
    List (Address × ℤ) :=
  (feeAddress, portion A amount config.protocolFeeBps) ::
    config.beneficiaries.map fun b =>
      (b.1, portion A (A.sub amount (portion A amount config.protocolFeeBps)) b.2)

section Spec

variable {A host env s t} {t' : T} {asset caller : Address}

/-- The loop depends on the reading through the shares only. -/
theorem payShares_congr {netAmount : ℤ} {beneficiaries : List (Address × ℕ)}
    (h : ∀ b ∈ beneficiaries, portion A netAmount b.2 = RevenueSplit.portion netAmount b.2) :
    payShares A host asset caller netAmount beneficiaries t
      = RevenueSplit.payShares host asset caller netAmount beneficiaries t := by
  induction beneficiaries generalizing t with
  | nil => rfl
  | cons b rest ih =>
      have hrest : ∀ t, payShares A host asset caller netAmount rest t
          = RevenueSplit.payShares host asset caller netAmount rest t :=
        fun _ => ih fun x hx => h x (List.mem_cons_of_mem _ hx)
      unfold payShares RevenueSplit.payShares
      rw [h b List.mem_cons_self]
      simp only [hrest]

/-- The wrapping reading is the contract. -/
theorem distribute_wrapping (projectId : SorobanString) (amount : ℤ) :
    distribute .wrapping host env s t caller projectId asset amount
      = RevenueSplit.distribute host env s t caller projectId asset amount := by
  have hshares : ∀ asset netAmount beneficiaries t,
      payShares .wrapping host asset caller netAmount beneficiaries t
        = RevenueSplit.payShares host asset caller netAmount beneficiaries t :=
    fun _ _ _ _ => payShares_congr fun _ _ => rfl
  unfold distribute RevenueSplit.distribute
  simp only [hshares]
  rfl

theorem payShares_eq_ok {netAmount : ℤ} {beneficiaries : List (Address × ℕ)} :
    payShares A host asset caller netAmount beneficiaries t = .ok t' ↔
      transferAll host t (positiveTransfers asset caller
        (beneficiaries.map fun b => (b.1, portion A netAmount b.2))) = some t' := by
  induction beneficiaries generalizing t with
  | nil => simp [payShares, positiveTransfers, transferAll]
  | cons b rest ih =>
      rw [List.map_cons, positiveTransfers_cons, transferAll_append, Option.bind_eq_some_iff]
      simp only [payShares, bind_eq_ok, transferPositive_eq_ok, ih]

theorem transferAll_computedDue {config : RevenueConfig} {feeAddress : Address} {amount : ℤ} :
    transferAll host t (positiveTransfers asset caller (computedDue A config feeAddress amount))
        = some t' ↔
      ∃ t₁, transferPositive host t asset caller feeAddress
          (portion A amount config.protocolFeeBps) = .ok t₁ ∧
        payShares A host asset caller (A.sub amount (portion A amount config.protocolFeeBps))
          config.beneficiaries t₁ = .ok t' := by
  unfold computedDue
  rw [positiveTransfers_cons, transferAll_append, Option.bind_eq_some_iff]
  simp only [transferPositive_eq_ok, payShares_eq_ok]

/-- A distribution returns when the token grants every transfer of what is computed as due. -/
theorem distribute_eq_ok {projectId : SorobanString} {amount : ℤ} {b : Bool} :
    distribute A host env s t caller projectId asset amount = .ok (b, t') ↔
      env.Authorised caller ∧ b = true ∧ ∃ config feeAddress,
        s.configs projectId = some config ∧ s.feeAddr = some feeAddress ∧
        transferAll host t (positiveTransfers asset caller
          (computedDue A config feeAddress amount)) = some t' := by
  simp only [transferAll_computedDue]
  simp only [distribute, bind_eq_ok, Env.requireAuth_eq_ok, orPanic_eq_ok, pure_eq_ok,
    Prod.mk.injEq]
  constructor
  · rintro ⟨-, hauth, config, hconfig, feeAddress, hfee, t₁, hpaid, t₂, hshares, rfl, rfl⟩
    exact ⟨hauth, rfl, config, feeAddress, hconfig, hfee, t₁, hpaid, hshares⟩
  · rintro ⟨hauth, rfl, config, feeAddress, hconfig, hfee, t₁, hpaid, hshares⟩
    exact ⟨(), hauth, config, hconfig, feeAddress, hfee, t₁, hpaid, t', hshares, rfl, rfl⟩

end Spec

/-! ## The exact reading -/

section Exact

variable {config : RevenueConfig} {feeAddress : Address} {amount : ℤ}

/-- Truncation is the floor where nothing is negative. -/
theorem portion_exact {x : ℤ} (hx : 0 ≤ x) (bps : ℕ) :
    portion .exact x bps = exactPortion x bps :=
  Int.tdiv_eq_ediv_of_nonneg (Int.mul_nonneg hx (Int.natCast_nonneg bps))

/-- A fee of at most everything leaves an amount that is not negative. -/
theorem net_nonneg (hpos : 0 < amount) (hbps : config.protocolFeeBps ≤ 10000) :
    0 ≤ amount - exactPortion amount config.protocolFeeBps := by
  have hfee : amount * (config.protocolFeeBps : ℤ) ≤ amount * 10000 :=
    mul_le_mul_of_nonneg_left (by exact_mod_cast hbps) hpos.le
  unfold exactPortion
  omega

/-- What the exact reading computes as due is what the split asks for. -/
theorem computedDue_exact (hpos : 0 < amount) (hbps : config.protocolFeeBps ≤ 10000) :
    computedDue .exact config feeAddress amount = exactDue config feeAddress amount := by
  have hsub : I128Reading.exact.sub amount (exactPortion amount config.protocolFeeBps)
      = amount - exactPortion amount config.protocolFeeBps := rfl
  unfold computedDue exactDue
  rw [portion_exact hpos.le, hsub]
  congr 1
  refine List.map_congr_left fun b _ => ?_
  rw [portion_exact (net_nonneg hpos hbps)]

theorem exactDue_nonneg_of_le (hpos : 0 < amount) (hbps : config.protocolFeeBps ≤ 10000) :
    ∀ d ∈ exactDue config feeAddress amount, 0 ≤ d.2 := by
  intro d hd
  rcases List.mem_cons.mp hd with rfl | hd
  · exact exactPortion_nonneg hpos.le _
  · obtain ⟨b, -, rfl⟩ := List.mem_map.mp hd
    exact exactPortion_nonneg (net_nonneg hpos hbps) b.2

/-- One floor is at most its exact quotient, and the quotient is less than one unit above. -/
theorem exactPortion_bounds (net : ℤ) (bps : ℕ) :
    10000 * exactPortion net bps ≤ net * bps ∧
      net * bps < 10000 * (exactPortion net bps + 1) := by
  unfold exactPortion
  omega

/-- Each share of a list loses less than one unit to its floor. -/
theorem lt_sum_exactPortion (net : ℤ) {l : List (Address × ℕ)} (hl : l ≠ []) :
    net * ((l.map Prod.snd).sum : ℕ)
      < 10000 * ((l.map fun b => exactPortion net b.2).sum + l.length) := by
  induction l with
  | nil => exact absurd rfl hl
  | cons b rest ih =>
      have hb : net * b.2 < 10000 * (exactPortion net b.2 + 1) := (exactPortion_bounds net b.2).2
      rw [List.map_cons, List.sum_cons, List.map_cons, List.sum_cons, List.length_cons,
        Nat.cast_add, Nat.cast_succ, mul_add]
      cases rest with
      | nil =>
          simp only [List.map_nil, List.sum_nil, List.length_nil, Nat.cast_zero, mul_zero]
          omega
      | cons b' rest =>
          have htail := ih (List.cons_ne_nil b' rest)
          omega

theorem sum_exactDue :
    ((exactDue config feeAddress amount).map Prod.snd).sum
      = exactPortion amount config.protocolFeeBps + (config.beneficiaries.map fun b =>
          exactPortion (amount - exactPortion amount config.protocolFeeBps) b.2).sum := by
  unfold exactDue
  rw [List.map_cons, List.sum_cons, List.map_map]
  rfl

/-- The exact split of a complete list takes at most the amount and leaves less than one unit
for each beneficiary. -/
theorem sum_exactDue_bounds (hcomplete : (config.beneficiaries.map Prod.snd).sum = 10000) :
    ((exactDue config feeAddress amount).map Prod.snd).sum ≤ amount ∧
      amount - config.beneficiaries.length
        < ((exactDue config feeAddress amount).map Prod.snd).sum := by
  have hne : config.beneficiaries ≠ [] := by
    rintro hnil
    rw [hnil] at hcomplete
    cases hcomplete
  have hle := sum_exactPortion_le (amount - exactPortion amount config.protocolFeeBps)
    config.beneficiaries
  have hlt := lt_sum_exactPortion (amount - exactPortion amount config.protocolFeeBps) hne
  rw [hcomplete] at hle hlt
  rw [sum_exactDue]
  push_cast at hle hlt
  omega

end Exact

/-! ## Conservation -/

/-- The transfers that the split of an amount asks of the token, in their order. -/
def transfersDue (config : RevenueConfig) (feeAddress asset caller : Address) (amount : ℤ) :
    List Transfer :=
  positiveTransfers asset caller (exactDue config feeAddress amount)

/-- What is moved out of an amount, against the amount: the rest is at least zero and less
than one unit for each entry of the list, and each entry gets the floor of its exact share. -/
structure Conserves (config : RevenueConfig) (amount : ℤ) (made : List Transfer) : Prop where
  taken_le : (made.map Transfer.amount).sum ≤ amount
  lt_taken : amount - config.beneficiaries.length < (made.map Transfer.amount).sum
  share_le : ∀ b ∈ config.beneficiaries,
    10000 * exactPortion (amount - exactPortion amount config.protocolFeeBps) b.2
      ≤ (amount - exactPortion amount config.protocolFeeBps) * b.2
  lt_share : ∀ b ∈ config.beneficiaries,
    (amount - exactPortion amount config.protocolFeeBps) * b.2
      < 10000 * (exactPortion (amount - exactPortion amount config.protocolFeeBps) b.2 + 1)

/-- A sequence of transfers takes effect as a whole or not at all: where the token grants
them one after the other `after` is what they lead to, and where it refuses one of them
`after` is what was there before. -/
structure AllOrNothing {T : Type} (host : RevenueHost T) (t : T) (due : List Transfer)
    (after : T) : Prop where
  all : ∀ t', transferAll host t due = some t' → after = t'
  nothing : ∀ before x rest t₁, due = before ++ x :: rest →
    transferAll host t before = some t₁ →
    host.tokenTransfer t₁ x.asset x.fromAddr x.toAddr x.amount = none → after = t

section Invocation

variable {T : Type} {A : I128Reading} {host : RevenueHost T} {env : Env} {s : RevenueSplit}
  {t : T} {caller asset feeAddress : Address} {projectId : SorobanString} {amount : ℤ}
  {config : RevenueConfig}

/-- The tokens move only by all the transfers that are due. -/
theorem tokensAfter_cases (hconfig : s.configs projectId = some config)
    (hfee : s.feeAddr = some feeAddress) :
    transferAll host t (positiveTransfers asset caller (computedDue A config feeAddress amount))
        = some (tokensAfter A host env s t caller projectId asset amount) ∨
      tokensAfter A host env s t caller projectId asset amount = t := by
  unfold tokensAfter
  cases h : distribute A host env s t caller projectId asset amount with
  | error e => exact Or.inr rfl
  | ok r =>
      obtain ⟨-, -, config', feeAddress', hconfig', hfee', htransfers⟩ := distribute_eq_ok.mp h
      obtain rfl := Option.some.inj (hconfig.symm.trans hconfig')
      obtain rfl := Option.some.inj (hfee.symm.trans hfee')
      exact Or.inl htransfers

theorem tokensAfter_of_transferAll {t' : T} (hauth : env.Authorised caller)
    (hconfig : s.configs projectId = some config) (hfee : s.feeAddr = some feeAddress)
    (htransfers : transferAll host t (positiveTransfers asset caller
      (computedDue A config feeAddress amount)) = some t') :
    tokensAfter A host env s t caller projectId asset amount = t' := by
  have hok : distribute A host env s t caller projectId asset amount = .ok (true, t') :=
    distribute_eq_ok.mpr ⟨hauth, rfl, config, feeAddress, hconfig, hfee, htransfers⟩
  unfold tokensAfter
  rw [hok]

theorem allOrNothing (hauth : env.Authorised caller)
    (hconfig : s.configs projectId = some config) (hfee : s.feeAddr = some feeAddress) :
    AllOrNothing host t (positiveTransfers asset caller (computedDue A config feeAddress amount))
      (tokensAfter A host env s t caller projectId asset amount) where
  all t' htransfers := tokensAfter_of_transferAll hauth hconfig hfee htransfers
  nothing before x rest t₁ hdue hbefore hrefused := by
    have hcases : transferAll host t
          (positiveTransfers asset caller (computedDue A config feeAddress amount))
        = some (tokensAfter A host env s t caller projectId asset amount) ∨
      tokensAfter A host env s t caller projectId asset amount = t :=
      tokensAfter_cases hconfig hfee
    rcases hcases with hall | hnothing
    · -- the sequence cannot have passed the refused transfer
      rw [hdue, transferAll_append, hbefore, Option.bind_some, transferAll_cons, hrefused] at hall
      cases hall
    · exact hnothing

end Invocation

/-- **Conservation.**  Whatever list and fee are stored, if its basis points sum to 10000 and
the fee is at most everything: what a distribution that returns has asked of the token is the
fee and the shares that are due, they conserve the amount, and either all of them take effect
or none does. -/
theorem distribute_conserves {T : Type} (host : RevenueHost T) (env : Env) (s : RevenueSplit)
    (t : T) (caller asset feeAddress : Address) (projectId : SorobanString) (amount : ℤ)
    (config : RevenueConfig) (hauth : env.Authorised caller)
    (hconfig : s.configs projectId = some config) (hfee : s.feeAddr = some feeAddress)
    (hcomplete : (config.beneficiaries.map Prod.snd).sum = 10000)
    (hbps : config.protocolFeeBps ≤ 10000) (hpos : 0 < amount) :
    (∀ t' made, distribute .exact (recording host) env s (t, []) caller projectId asset amount
        = .ok (true, t', made) →
      made = transfersDue config feeAddress asset caller amount) ∧
    Conserves config amount (transfersDue config feeAddress asset caller amount) ∧
    AllOrNothing host t (transfersDue config feeAddress asset caller amount)
      (tokensAfter .exact host env s t caller projectId asset amount) := by
  have hdue : computedDue .exact config feeAddress amount = exactDue config feeAddress amount :=
    computedDue_exact hpos hbps
  have hbounds : ((exactDue config feeAddress amount).map Prod.snd).sum ≤ amount ∧
      amount - config.beneficiaries.length
        < ((exactDue config feeAddress amount).map Prod.snd).sum :=
    sum_exactDue_bounds hcomplete
  have hsum := sum_positiveTransfers asset caller (exactDue config feeAddress amount)
    (exactDue_nonneg_of_le hpos hbps)
  refine ⟨?_, ?_, ?_⟩
  · intro t' made h
    obtain ⟨-, -, config', feeAddress', hconfig', hfee', htransfers⟩ := distribute_eq_ok.mp h
    obtain rfl := Option.some.inj (hconfig.symm.trans hconfig')
    obtain rfl := Option.some.inj (hfee.symm.trans hfee')
    rw [transferAll_recording, Option.map_eq_some_iff, hdue] at htransfers
    obtain ⟨_, -, hpair⟩ := htransfers
    exact (Prod.mk.inj hpair).2.symm
  · exact
      { taken_le := by
          unfold transfersDue
          rw [hsum]
          exact hbounds.1
        lt_taken := by
          unfold transfersDue
          rw [hsum]
          exact hbounds.2
        share_le := fun b _ => (exactPortion_bounds _ b.2).1
        lt_share := fun b _ => (exactPortion_bounds _ b.2).2 }
  · have hall : AllOrNothing host t
        (positiveTransfers asset caller (computedDue .exact config feeAddress amount))
        (tokensAfter .exact host env s t caller projectId asset amount) :=
      allOrNothing hauth hconfig hfee
    rw [hdue] at hall
    exact hall

open Sample in
theorem distribute_conserves_evenShares :
    (∀ t' made, distribute .exact (recording revenueHost) revenueEnv
        { admin := some (.account 0), feeAddr := some (.account 1),
          configs := fun _ => some (configured [80] evenShares) } (payerBalances, [])
        (.account 2) [80] (.contract 7) 10001 = .ok (true, t', made) →
      made = transfersDue (configured [80] evenShares) (.account 1) (.contract 7) (.account 2)
        10001) ∧
    Conserves (configured [80] evenShares) 10001
      (transfersDue (configured [80] evenShares) (.account 1) (.contract 7) (.account 2) 10001) ∧
    AllOrNothing revenueHost payerBalances
      (transfersDue (configured [80] evenShares) (.account 1) (.contract 7) (.account 2) 10001)
      (tokensAfter .exact revenueHost revenueEnv
        { admin := some (.account 0), feeAddr := some (.account 1),
          configs := fun _ => some (configured [80] evenShares) } payerBalances
        (.account 2) [80] (.contract 7) 10001) :=
  distribute_conserves revenueHost revenueEnv _ payerBalances (.account 2) (.contract 7)
    (.account 1) [80] 10001 (configured [80] evenShares) (by decide) rfl rfl (by decide)
    (by decide) (by decide)

/-! ## The machine -/

/-- **The exact reading is the contract** wherever no product leaves its type. -/
theorem distribute_exact_eq {T : Type} (host : RevenueHost T) (env : Env) (s : RevenueSplit)
    (t : T) (caller asset : Address) (projectId : SorobanString) (amount : ℤ)
    (config : RevenueConfig) (hconfig : s.configs projectId = some config)
    (hbps : config.protocolFeeBps ≤ 10000) (hpos : 0 < amount) (hlt : amount < 2 ^ 127)
    (hfits : Fits config amount) :
    distribute .exact host env s t caller projectId asset amount
      = RevenueSplit.distribute host env s t caller projectId asset amount := by
  have hnet := net_nonneg hpos hbps
  have hfeePos : 0 ≤ exactPortion amount config.protocolFeeBps := exactPortion_nonneg hpos.le _
  have hfee : portion .exact amount config.protocolFeeBps
      = RevenueSplit.portion amount config.protocolFeeBps := by
    rw [portion_of_lt hpos.le hfits.fee, portion_exact hpos.le]
  have hsub : I128Reading.exact.sub amount (RevenueSplit.portion amount config.protocolFeeBps)
      = i128Sub amount (RevenueSplit.portion amount config.protocolFeeBps) := by
    rw [portion_of_lt hpos.le hfits.fee]
    exact (i128Sub_of_range hnet (by omega)).symm
  have hshares : ∀ t, payShares .exact host asset caller
        (i128Sub amount (RevenueSplit.portion amount config.protocolFeeBps))
        config.beneficiaries t
      = RevenueSplit.payShares host asset caller
        (i128Sub amount (RevenueSplit.portion amount config.protocolFeeBps))
        config.beneficiaries t := by
    intro t
    refine payShares_congr fun b hb => ?_
    rw [portion_of_lt hpos.le hfits.fee, i128Sub_of_range hnet (by omega), portion_exact hnet,
      portion_of_lt hnet (hfits.shares b hb)]
  have hfound : orPanic (s.configs projectId) (.error .notFound) = .ok config :=
    orPanic_eq_ok.mpr hconfig
  have hread : ∀ rest : RevenueConfig → Result (Bool × T),
      (Except.ok config >>= rest) = rest config := fun _ => rfl
  unfold distribute RevenueSplit.distribute
  simp only [hfound, hread, hfee, hsub, hshares]

end Reading

end RevenueSplit

end CarbonVeritas
