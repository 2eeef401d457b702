/-
# Token ids

A credit gets its token id when it is minted, by the vote or by a bridge, and the id is the hash
of the credit's number.  `TokenIds` says so of a storage, and every call preserves it:
submissions and imports store their own id whatever the metadata argument says, and the
retirement rewrites the credit with the id it has.

`tokenIds_identify` : in every run the token id tells whether a credit is minted and which.
-/
import CarbonVeritas.VoteOutcome

namespace CarbonVeritas

open Transition

/-- The credit has been minted. -/
def CreditMetadata.Minted (m : CreditMetadata) : Prop :=
  m.status ≠ .pending ∧ m.status ≠ .rejected

instance (m : CreditMetadata) : Decidable m.Minted :=
  inferInstanceAs (Decidable (_ ∧ _))

/-- A credit that is not minted is pending or rejected. -/
theorem CreditMetadata.not_minted_iff (m : CreditMetadata) :
    ¬ m.Minted ↔ m.status = .pending ∨ m.status = .rejected := by
  unfold Minted
  rw [not_and_or, not_not, not_not]

/-- A minted credit stays minted. -/
theorem CreditMetadata.Minted.moves {m m' : CreditMetadata} (h : m.Minted)
    (hmoves : Relation.ReflTransGen CreditStatus.Moves m.status m'.status) : m'.Minted := by
  have hreach : ∀ b, Relation.ReflTransGen CreditStatus.Moves m.status b →
      b ≠ .pending ∧ b ≠ .rejected := by
    intro b hb
    induction hb with
    | refl => exact h
    | tail _ hmove ih =>
        cases hmove with
        | approve => exact absurd rfl ih.1
        | reject => exact absurd rfl ih.1
        | retire => decide
  exact hreach _ hmoves

namespace CreditRegistry

variable {sha256 : (n : ℕ) → BitVec n → Bytes32} {env : Env} {s s' : CreditRegistry}

/-- The token id that a credit has. -/
def expectedTokenId (sha256 : (n : ℕ) → BitVec n → Bytes32) (c : ℕ) (m : CreditMetadata) :
    Bytes32 :=
  if m.Minted then tokenIdOf sha256 c else 0#256

/-- Every stored credit has the token id of its number, or none. -/
def TokenIds (sha256 : (n : ℕ) → BitVec n → Bytes32) (s : CreditRegistry) : Prop :=
  ∀ c m, s.credits c = some m → m.tokenId = expectedTokenId sha256 c m

/-- Before the first submission there are no tokens. -/
theorem tokenIds_empty : TokenIds sha256 empty := by
  intro c m h
  cases h

/-- A write of a credit with the right id. -/
theorem TokenIds.write (h : TokenIds sha256 s) {i : ℕ} {c : CreditMetadata}
    (hcredits : s'.credits = Function.update s.credits i (some c))
    (hc : c.tokenId = expectedTokenId sha256 i c) : TokenIds sha256 s' := by
  intro id m hm
  rcases stored_of_update hcredits hm with ⟨rfl, rfl⟩ | hold
  · exact hc
  · exact h id m hold

/-- A minted credit has the token of its id. -/
theorem TokenIds.eq_tokenIdOf (h : TokenIds sha256 s) {c : ℕ} {m : CreditMetadata}
    (hm : s.credits c = some m) (hminted : m.Minted) : m.tokenId = tokenIdOf sha256 c := by
  rw [h c m hm, expectedTokenId, if_pos hminted]

/-- Every call keeps the tokens. -/
theorem TokenIds.step {call : Call} (h : TokenIds sha256 s)
    (hexec : exec sha256 env s call = .ok s') : TokenIds sha256 s' := by
  cases exec_creditChange hexec with
  | keep _ hcredits _ =>
      intro c m hm
      rw [hcredits] at hm
      exact h c m hm
  | submit _ _ hcredits _ => exact h.write hcredits rfl
  | mint _ _ _ hcredits _ => exact h.write hcredits rfl
  | approve _ _ hcredits _ => exact h.write hcredits rfl
  | reject hvote _ hcredits _ =>
      -- the pending credit had no id yet
      have hold := h _ _ hvote.stored
      rw [expectedTokenId, if_neg fun hminted => hminted.1 hvote.pending] at hold
      exact h.write hcredits hold
  | transfer _ _ _ _ _ hcredits _ =>
      intro c m hm
      rw [hcredits] at hm
      exact h c m hm
  | retire _ _ hstored hactive _ hcredits _ =>
      -- the active credit had its id already
      have hold := h.eq_tokenIdOf hstored ⟨by rw [hactive]; decide, by rw [hactive]; decide⟩
      exact h.write hcredits hold

/-- In every run the tokens are kept. -/
theorem TokenIds.run (h : TokenIds sha256 s) (ts : List (Env × Call)) :
    TokenIds sha256 (run (apply sha256) s ts) :=
  run_invariant (C := fun _ _ => True)
    (fun _ _ hs _ => apply_rule hs fun _ hexec => hs.step hexec) h fun _ _ => trivial

/-- Numbers that fit have their own eight bytes. -/
theorem tokenIdOf_injective (hinj : Function.Injective (sha256 64)) {c d : ℕ} (hc : c < 2 ^ 64)
    (hd : d < 2 ^ 64) (h : tokenIdOf sha256 c = tokenIdOf sha256 d) : c = d := by
  have hbytes : BitVec.ofNat 64 c = BitVec.ofNat 64 d := hinj h
  have hnat := congrArg BitVec.toNat hbytes
  rw [BitVec.toNat_ofNat, BitVec.toNat_ofNat] at hnat
  omega

/-- A credit has no token while it is pending or rejected. -/
theorem TokenIds.eq_zero_iff (h : TokenIds sha256 s) (hzero : ∀ x, sha256 64 x ≠ 0#256) {c : ℕ}
    {m : CreditMetadata} (hm : s.credits c = some m) :
    m.tokenId = 0#256 ↔ m.status = .pending ∨ m.status = .rejected := by
  rw [h c m hm, expectedTokenId]
  by_cases hminted : m.Minted
  · rw [if_pos hminted]
    exact iff_of_false (hzero _) fun hnot => m.not_minted_iff.mpr hnot hminted
  · rw [if_neg hminted]
    exact iff_of_true rfl (m.not_minted_iff.mp hminted)

/-- **Token ids identify minted credits.**  In every state that a run reaches: the token id of a
credit is zero if and only if the credit is pending or rejected, and otherwise it is the hash of
the credit's number; minted credits have different ids; a later state has the same id; and an
approval that returns an id has stored it. -/
theorem tokenIds_identify (sha256 : (n : ℕ) → BitVec n → Bytes32)
    (hinj : Function.Injective (sha256 64)) (hzero : ∀ x, sha256 64 x ≠ 0#256)
    (ts : List (Env × Call)) :
    (∀ c m, (run (apply sha256) empty ts).credits c = some m →
      (m.tokenId = 0#256 ↔ m.status = .pending ∨ m.status = .rejected) ∧
      (m.Minted → m.tokenId = tokenIdOf sha256 c)) ∧
    (∀ c d m m', (run (apply sha256) empty ts).credits c = some m →
      (run (apply sha256) empty ts).credits d = some m' → c < 2 ^ 64 → d < 2 ^ 64 →
      m.Minted → m'.Minted → c ≠ d → m.tokenId ≠ m'.tokenId) ∧
    (∀ us c m, (run (apply sha256) empty ts).credits c = some m → m.tokenId ≠ 0#256 →
      ∃ m', (run (apply sha256) (run (apply sha256) empty ts) us).credits c = some m' ∧
        m'.tokenId = m.tokenId) ∧
    (∀ env verifier c comments id s',
      approveAndMint sha256 env (run (apply sha256) empty ts) verifier c comments
        = .ok (some id, s') →
      ∃ m, s'.credits c = some m ∧ m.tokenId = id) := by
  have hids : TokenIds sha256 (run (apply sha256) empty ts) := tokenIds_empty.run ts
  have hidx : CreditsIndexed (run (apply sha256) empty ts) := creditsIndexed_empty.run ts
  refine ⟨?_, ?_, ?_, ?_⟩
  · intro c m hm
    exact ⟨hids.eq_zero_iff hzero hm, hids.eq_tokenIdOf hm⟩
  · intro c d m m' hm hm' hc hd hminted hminted' hne heq
    rw [hids.eq_tokenIdOf hm hminted, hids.eq_tokenIdOf hm' hminted'] at heq
    exact hne (tokenIdOf_injective hinj hc hd heq)
  · intro us c m hm hne
    obtain ⟨m', hm', -, hreach⟩ := run_metadata sha256 hidx us hm
    have hminted : m.Minted := by
      by_contra hnot
      exact hne ((hids.eq_zero_iff hzero hm).mpr (m.not_minted_iff.mp hnot))
    have hminted' : m'.Minted := hminted.moves hreach
    refine ⟨m', hm', ?_⟩
    rw [(hids.run us).eq_tokenIdOf hm' hminted', hids.eq_tokenIdOf hm hminted]
  · intro env verifier c comments id s' h
    obtain ⟨credit, config, -, -, hcases⟩ := approveAndMint_eq_ok.mp h
    rcases hcases with ⟨-, hid, rfl⟩ | ⟨-, hid, -⟩
    · refine ⟨{ credit with status := .active, tokenId := tokenIdOf sha256 c }, ?_, ?_⟩
      · simp
      · exact (Option.some.inj hid).symm
    · cases hid

namespace Panel

/-- A function that is injective on 64 bits, without the value 0, and that has the SHA-256 of the
id 1. -/
def idHash (n : ℕ) (x : BitVec n) : Bytes32 :=
  x.setWidth 256 + 0xcd2662154e6d76b2b2b92e70c0cac3ccf534f9b74eb5b89819ec509083d00a4f#256

/-- The hash of the sample, as a number. -/
theorem toNat_idHash (x : BitVec 64) : (idHash 64 x).toNat = x.toNat +
    0xcd2662154e6d76b2b2b92e70c0cac3ccf534f9b74eb5b89819ec509083d00a4f := by
  have hx := x.isLt
  unfold idHash
  rw [BitVec.toNat_add, BitVec.toNat_setWidth, BitVec.toNat_ofNat]
  omega

/-- It separates the ids. -/
theorem idHash_injective : Function.Injective (idHash 64) := by
  intro x y h
  have hnat := congrArg BitVec.toNat h
  rw [toNat_idHash, toNat_idHash] at hnat
  exact BitVec.eq_of_toNat_eq (by omega)

/-- It is never zero. -/
theorem idHash_ne_zero (x : BitVec 64) : idHash 64 x ≠ 0#256 := by
  intro h
  have hnat := congrArg BitVec.toNat h
  rw [toNat_idHash, BitVec.toNat_ofNat] at hnat
  omega

/-- The verifiers 1 and 2 approve the credit 1. -/
def minting : List (Env × Call) :=
  setup ++ [(signedBy 1, .approveAndMint (.account 1) 1 []),
    (signedBy 2, .approveAndMint (.account 2) 1 [])]

end Panel

/-- The minted credit of the sample has the token of its id. -/
theorem tokenIds_identify_minting :
    ∃ m, (run (apply Panel.idHash) empty Panel.minting).credits 1 = some m ∧
      m.status = .active ∧
      m.tokenId = 0xcd2662154e6d76b2b2b92e70c0cac3ccf534f9b74eb5b89819ec509083d00a50#256 := by
  obtain ⟨hids, -⟩ := tokenIds_identify Panel.idHash Panel.idHash_injective Panel.idHash_ne_zero
    Panel.minting
  obtain ⟨m, hm, hactive⟩ : ∃ m, (run (apply Panel.idHash) empty Panel.minting).credits 1 = some m ∧
      m.status = .active := ⟨_, rfl, rfl⟩
  refine ⟨m, hm, hactive, ?_⟩
  rw [(hids 1 m hm).2 ⟨by rw [hactive]; decide, by rw [hactive]; decide⟩]
  rfl

end CreditRegistry

end CarbonVeritas
