import Mathlib.Data.List.Basic
import Mathlib.Tactic.Ring

/-! # Numbers as bytes

`beBytes w n` is the big-endian form of `n` in `w` bytes, `beNat` reads one back. The two are
inverse to each other on the numbers below `256 ^ w` and on the strings of `w` bytes. `leBytes` and
`leNat` are the same with the least significant byte first. -/

namespace ArkForge.Lib.Bytes

/-- What is said of all bytes can be decided, one byte after the other. -/
instance (priority := low) decidableForallByte {p : UInt8 → Prop} [DecidablePred p] :
    Decidable (∀ b, p b) :=
  decidable_of_iff (∀ b : Fin 256, p (.ofFin b)) ⟨fun h b => h b.toFin, fun h b => h (.ofFin b)⟩

/-- The `w` low bytes of `n`, most significant first. -/
def beBytes : ℕ → ℕ → List UInt8
  | 0, _ => []
  | w + 1, n => UInt8.ofNat (n / 256 ^ w) :: beBytes w n

/-- The number a byte string denotes, most significant byte first. -/
def beNat : List UInt8 → ℕ
  | [] => 0
  | b :: l => b.toNat * 256 ^ l.length + beNat l

@[simp] theorem length_beBytes : ∀ w n : ℕ, (beBytes w n).length = w
  | 0, _ => rfl
  | w + 1, n => by rw [beBytes, List.length_cons, length_beBytes w n]

theorem beNat_lt : ∀ l : List UInt8, beNat l < 256 ^ l.length
  | [] => by simp [beNat]
  | b :: l => by
    have hb := b.toNat_lt
    have hl := beNat_lt l
    have hm : b.toNat * 256 ^ l.length ≤ 255 * 256 ^ l.length := Nat.mul_le_mul_right _ (by omega)
    rw [beNat, List.length_cons]
    omega

theorem beNat_beBytes_mod : ∀ w n : ℕ, beNat (beBytes w n) = n % 256 ^ w
  | 0, n => by simp [beBytes, beNat, Nat.mod_one]
  | w + 1, n => by
    have hp : n % 256 ^ (w + 1) = n % 256 ^ w + 256 ^ w * (n / 256 ^ w % 256) := by
      rw [pow_succ, Nat.mod_mul]
    rw [beBytes, beNat, length_beBytes, beNat_beBytes_mod w n, UInt8.toNat_ofNat', hp]
    ring

theorem beNat_beBytes {w n : ℕ} (h : n < 256 ^ w) : beNat (beBytes w n) = n := by
  rw [beNat_beBytes_mod, Nat.mod_eq_of_lt h]

/-- Only the low `w` bytes of the number matter. -/
theorem beBytes_add_mul (w a : ℕ) : ∀ v n : ℕ, v ≤ w → beBytes v (a * 256 ^ w + n) = beBytes v n
  | 0, _, _ => rfl
  | v + 1, n, h => by
    have hw : a * 256 ^ w = 256 ^ v * (a * 256 ^ (w - v)) := by
      rw [Nat.mul_left_comm, ← pow_add, Nat.add_sub_cancel' (by omega)]
    have hm : a * 256 ^ (w - v) = 256 * (a * 256 ^ (w - v - 1)) := by
      rw [Nat.mul_left_comm, ← pow_succ', Nat.sub_add_cancel (by omega)]
    rw [beBytes, beBytes_add_mul w a v n (by omega), hw,
      Nat.mul_add_div (Nat.pow_pos (by decide))]
    congr 1
    rw [← UInt8.toNat_inj, UInt8.toNat_ofNat', UInt8.toNat_ofNat']
    omega

theorem beBytes_beNat : ∀ l : List UInt8, beBytes l.length (beNat l) = l
  | [] => rfl
  | b :: l => by
    have hl := beNat_lt l
    rw [List.length_cons, beBytes, beNat, beBytes_add_mul _ _ _ _ le_rfl, beBytes_beNat l,
      Nat.mul_comm, Nat.mul_add_div (Nat.pow_pos (by decide)), Nat.div_eq_of_lt hl]
    congr 1
    exact UInt8.ofNat_toNat

/-- The `w` low bytes of `n`, least significant first. -/
def leBytes (w n : ℕ) : List UInt8 := (beBytes w n).reverse

/-- The number a byte string denotes, least significant byte first. -/
def leNat (l : List UInt8) : ℕ := beNat l.reverse

@[simp] theorem length_leBytes (w n : ℕ) : (leBytes w n).length = w := by
  rw [leBytes, List.length_reverse, length_beBytes]

theorem leNat_leBytes {w n : ℕ} (h : n < 256 ^ w) : leNat (leBytes w n) = n := by
  rw [leNat, leBytes, List.reverse_reverse, beNat_beBytes h]

end ArkForge.Lib.Bytes
