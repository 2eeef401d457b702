/-
# Numbers as arguments

What the contracts read from the numbers that the API encodes, one lemma for each encoder:
`u32_eq_ok`, `u64_intCast` and `u64_nan`, `i128_pos` and `i128_intCast`.
-/
import CarbonVeritas.StellarService

namespace CarbonVeritas

/-- How `new ScInt(value).toI128()` reads a number: an integer that is not negative and fits is
read as it is, and what is read as a positive integer is that integer.  A fraction throws, and
the bits of an integer that does not fit are those of a negative one, or too many. -/
structure ArgumentSdk.ReadsIntegers (sdk : ArgumentSdk) : Prop where
  fits : ∀ z : ℤ, 0 ≤ z → z < 2 ^ 127 → sdk.toI128 (.number (.finite (z : ℚ))) = some z
  positive : ∀ (x : JsNumber) (z : ℤ), sdk.toI128 (.number x) = some z → 0 < z →
    x = .finite (z : ℚ)

namespace StellarHost

variable {T : Type} {host : StellarHost T}

theorem asInteger_eq_some {x : JsNumber} {z : ℤ} :
    ApiScVal.asInteger x = some z ↔ x = .finite (z : ℚ) := by
  cases x with
  | nan => exact iff_of_false nofun nofun
  | infinity negative => exact iff_of_false nofun nofun
  | finite q =>
      simp only [ApiScVal.asInteger, Option.ite_none_right_eq_some, Option.some.injEq,
        JsNumber.finite.injEq]
      constructor
      · rintro ⟨hden, rfl⟩
        exact (Rat.coe_int_num_of_den_eq_one hden).symm
      · rintro rfl
        exact ⟨Rat.den_intCast _, Rat.num_intCast _⟩

theorem u32_eq_ok {x : JsNumber} {n : ℕ} : host.u32 x = .ok n ↔ x = .finite ((n : ℤ) : ℚ) := by
  rw [← asInteger_eq_some]
  unfold u32 read ApiScVal.scU32
  cases hx : ApiScVal.asInteger x with
  | none => exact iff_of_false nofun nofun
  | some z =>
      cases z with
      | ofNat m =>
          show Except.ok m = Except.ok n ↔ _
          rw [Except.ok.injEq, Option.some.injEq]
          exact Int.ofNat_inj.symm
      | negSucc m => exact iff_of_false nofun (by simp)

theorem u64_intCast {z : ℤ} (hz : z.natAbs ≤ 2 ^ 53) {n : ℕ} :
    host.u64 (.number (.finite (z : ℚ))) = .ok n ↔ z = n := by
  rw [u64_of_integer (Rat.den_intCast z) (by rwa [Rat.num_intCast]), Rat.num_intCast]

theorem u64_nan (n : ℕ) : host.u64 (.number .nan) ≠ .ok n := nofun

theorem i128_eq_ok {value : Numeric} {z : ℤ} :
    host.i128 value = .ok z ↔ host.sdk.toI128 value = some z := by
  unfold i128 read ApiScVal.scI128
  cases host.sdk.toI128 value with
  | none => exact iff_of_false nofun nofun
  | some z' =>
      show Except.ok z' = Except.ok z ↔ _
      rw [Except.ok.injEq, Option.some.injEq]

theorem i128_intCast (hsdk : host.sdk.ReadsIntegers) {z : ℤ} (hz : 0 ≤ z) (hfits : z < 2 ^ 127) :
    host.i128 (.number (.finite (z : ℚ))) = .ok z := i128_eq_ok.mpr (hsdk.fits z hz hfits)

theorem i128_pos (hsdk : host.sdk.ReadsIntegers) {x : JsNumber} {z : ℤ}
    (h : host.i128 (.number x) = .ok z) (hz : 0 < z) : x = .finite (z : ℚ) :=
  hsdk.positive x z (i128_eq_ok.mp h) hz

end StellarHost

namespace Sample

theorem stellarHost_reads : stellarHost.sdk.ReadsIntegers where
  fits _ _ _ := StellarHost.asInteger_eq_some.mpr rfl
  positive _ _ h _ := StellarHost.asInteger_eq_some.mp h

end Sample

end CarbonVeritas
