/-
# Codes of Soroban values

Soroban values are countable: each has a code of its own, so that transactions can be given
distinct hashes.
-/
import CarbonVeritas.ScVal
import Mathlib.Data.Nat.Pairing
import Mathlib.Logic.Encodable.Basic
import Mathlib.Logic.Equiv.List

namespace CarbonVeritas

def textCode (s : String) : ℕ := Encodable.encode (s.toList.map Char.toNat)

theorem textCode_inj {s t : String} : textCode s = textCode t ↔ s = t := by
  unfold textCode
  rw [Encodable.encode_inj, ← String.toList_inj]
  exact (List.map_injective_iff.mpr fun a b h => Char.toNat_inj.mp h).eq_iff

def bytesCode (bs : List UInt8) : ℕ := Encodable.encode (bs.map UInt8.toNat)

theorem bytesCode_inj {bs cs : List UInt8} : bytesCode bs = bytesCode cs ↔ bs = cs := by
  unfold bytesCode
  rw [Encodable.encode_inj]
  exact (List.map_injective_iff.mpr fun a b h => UInt8.toNat_inj.mp h).eq_iff

def addressCode : Address → ℕ
  | .account key => Nat.pair 0 key
  | .contract id => Nat.pair 1 id

theorem addressCode_inj {a b : Address} : addressCode a = addressCode b ↔ a = b := by
  cases a <;> cases b <;> simp [addressCode, Nat.pair_eq_pair]

mutual

/-- The code of a value: its constructor, and what it holds. -/
def ScVal.code : ScVal → ℕ
  | .void => Nat.pair 0 0
  | .bool b => Nat.pair 1 (Encodable.encode b)
  | .u32 n => Nat.pair 2 n
  | .u64 n => Nat.pair 3 n
  | .i128 z => Nat.pair 4 (Encodable.encode z)
  | .bytes bs => Nat.pair 5 (bytesCode bs)
  | .string s => Nat.pair 6 (bytesCode s)
  | .symbol name => Nat.pair 7 (textCode name)
  | .address a => Nat.pair 8 (addressCode a)
  | .vec items => Nat.pair 9 (codeItems items)
  | .map entries => Nat.pair 10 (codeEntries entries)

def codeItems : List ScVal → ℕ
  | [] => 0
  | v :: vs => Nat.pair v.code (codeItems vs) + 1

def codeEntries : List (String × ScVal) → ℕ
  | [] => 0
  | (name, v) :: es => Nat.pair (textCode name) (Nat.pair v.code (codeEntries es)) + 1

end

mutual

/-- Values of different constructors have different codes. -/
theorem ScVal.code_inj (v w : ScVal) (h : v.code = w.code) : v = w := by
  cases v <;> cases w <;>
    simp only [ScVal.code, Nat.pair_eq_pair, Encodable.encode_inj, bytesCode_inj, textCode_inj,
      addressCode_inj, reduceCtorEq, true_and, false_and, OfNat.ofNat_ne_zero] at h ⊢
  all_goals first
    | exact absurd h.1 (by decide)
    | rw [h]
    | rw [codeItems_inj _ _ h]
    | rw [codeEntries_inj _ _ h]

theorem codeItems_inj (vs ws : List ScVal) (h : codeItems vs = codeItems ws) : vs = ws := by
  cases vs <;> cases ws <;> simp only [codeItems, Nat.add_right_cancel_iff, Nat.pair_eq_pair] at h
  case nil.nil => rfl
  case cons.cons v vs w ws => rw [ScVal.code_inj v w h.1, codeItems_inj vs ws h.2]
  all_goals cases h

theorem codeEntries_inj (es fs : List (String × ScVal)) (h : codeEntries es = codeEntries fs) :
    es = fs := by
  cases es <;> cases fs <;>
    simp only [codeEntries, Nat.add_right_cancel_iff, Nat.pair_eq_pair, textCode_inj] at h
  case nil.nil => rfl
  case cons.cons e es f fs =>
    obtain ⟨hname, hvalue, hrest⟩ := h
    rw [Prod.ext hname (ScVal.code_inj _ _ hvalue), codeEntries_inj es fs hrest]
  all_goals cases h

end

end CarbonVeritas
