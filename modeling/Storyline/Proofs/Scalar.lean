import Storyline.Scalar

/-!
# Equality is symmetric

Two operands of different kinds are compared through numbers: a truth value counts as one or zero
and a string as the number that it spells. The table of these cases is symmetric, and so is the
equality of doubles below it, where no number is equal to anything and the two zeros are equal.

## Main results

* `beq_comm`: the equality of doubles
* `numbersEqual_comm`, `equalsPlain_comm`: the equality of numbers and of operands of one kind
* `looseEquals_comm`: the equality of operands
-/

namespace Storyline

/-! ## Doubles -/

namespace Number

open Float.Model (UnpackedFloat)

/-- Two doubles compare one way as they compare the other way, turned around. -/
theorem compare_swap (a b : UnpackedFloat) : a.compare b = (b.compare a).map Ordering.swap := by
  cases a with
  | notANumber => cases b <;> rfl
  | infinity s =>
    cases b with
    | notANumber => rfl
    | infinity t => cases s <;> cases t <;> rfl
    | zero t => cases s <;> rfl
    | finite t m e => cases s <;> cases t <;> rfl
  | zero s =>
    cases b with
    | notANumber => rfl
    | infinity t => cases t <;> rfl
    | zero t => rfl
    | finite t m e => cases t <;> rfl
  | finite s m e =>
    cases b with
    | notANumber => rfl
    | infinity t => cases s <;> cases t <;> rfl
    | zero t => cases s <;> rfl
    | finite t m' e' =>
      -- The exponents decide, and the mantissas where they are equal.
      have hswap : ((compare e e').then (compare m m')).swap =
          (compare e' e).then (compare m' m) := by
        rw [Ordering.swap_then, ← Std.OrientedCmp.eq_swap, ← Std.OrientedCmp.eq_swap]
      cases s with
      | negative =>
        cases t with
        | negative =>
          show some _ = some (Ordering.swap (Ordering.swap _))
          rw [hswap, Ordering.swap_swap]
        | positive => rfl
      | positive =>
        cases t with
        | negative => rfl
        | positive =>
          show some _ = some (Ordering.swap _)
          rw [← hswap, Ordering.swap_swap]

theorem beq_comm (x y : Float) : (x == y) = (y == x) := by
  have hswap := compare_swap x.toModel.unpack y.toModel.unpack
  show (x.toModel.unpack.compare y.toModel.unpack == some .eq) =
    (y.toModel.unpack.compare x.toModel.unpack == some .eq)
  rw [hswap]
  rcases y.toModel.unpack.compare x.toModel.unpack with _ | _ | _ | _ <;> rfl

end Number

/-! ## Operands -/

namespace Operand

theorem numbersEqual_comm (m n : Number) : numbersEqual m n = numbersEqual n m := by
  cases m with
  | int a =>
    cases n with
    | int b => exact Bool.beq_comm
    | float y => rfl
  | float x =>
    cases n with
    | int b => rfl
    | float y => exact Number.beq_comm x y

/-- A number equals a string exactly as the string equals the number. -/
theorem equalsText_comm (n : Number) (s : String) :
    (textToFloat s >>= fun x => pure (numbersEqual n (.float x)) : Except NumberFault Bool) =
      textToFloat s >>= fun x => pure (numbersEqual (.float x) n) :=
  congrArg _ (funext fun x => congrArg _ (numbersEqual_comm n (.float x)))

theorem equalsPlain_comm (a b : Scalar) : equalsPlain a b = equalsPlain b a := by
  cases a with
  | bool p =>
    cases b with
    | bool q => exact congrArg Except.ok Bool.beq_comm
    | int _ | float _ | str _ => rfl
  | int m =>
    cases b with
    | bool _ => rfl
    | int n => exact congrArg Except.ok (numbersEqual_comm (.int m) (.int n))
    | float y => exact congrArg Except.ok (numbersEqual_comm (.int m) (.float y))
    | str t => exact equalsText_comm (.int m) t
  | float x =>
    cases b with
    | bool _ => rfl
    | int n => exact congrArg Except.ok (numbersEqual_comm (.float x) (.int n))
    | float y => exact congrArg Except.ok (numbersEqual_comm (.float x) (.float y))
    | str t => exact equalsText_comm (.float x) t
  | str s =>
    cases b with
    | bool _ => rfl
    | int n => exact (equalsText_comm (.int n) s).symm
    | float y => exact (equalsText_comm (.float y) s).symm
    | str t => exact congrArg Except.ok (BEq.comm (a := s) (b := t))

/-- **The equality of operands is symmetric**, whatever kinds they are of. -/
theorem looseEquals_comm (a b : Operand) : looseEquals a b = looseEquals b a := by
  cases a with
  | none => cases b <;> rfl
  | some a =>
    cases b with
    | none => rfl
    | some b =>
      -- A truth value beside another kind is put as a number on either side.
      cases a with
      | bool p =>
        cases b with
        | bool q => exact congrArg Except.ok Bool.beq_comm
        | int _ | float _ | str _ =>
          unfold looseEquals
          exact equalsPlain_comm _ _
      | int _ | float _ | str _ =>
        unfold looseEquals
        cases b <;> exact equalsPlain_comm _ _

end Operand

end Storyline
