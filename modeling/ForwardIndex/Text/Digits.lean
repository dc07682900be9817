import ForwardIndex.Text

/-!
# Values of digits

The number that digits in a base stand for. Neighbours are put together to digits of the squared
base until one is left, so that a long text takes few multiplications of large numbers.
`ofDigits_eq_foldr` says that this is the usual value.
-/
set_option autoImplicit false
namespace ForwardIndex.Text

/-- Digits of a base as digits of its square, the lowest first. -/
def pairUp (base : Nat) : List Nat → List Nat
  | low :: high :: rest => (low + base * high) :: pairUp base rest
  | ds => ds

theorem length_pairUp_le (base : Nat) (ds : List Nat) : (pairUp base ds).length ≤ ds.length := by
  fun_induction pairUp base ds with
  | case1 low high rest ih => simp only [List.length_cons]; omega
  | case2 ds h => exact Nat.le_refl _

/-- The number that digits stand for, the lowest first. -/
def ofDigits (base : Nat) : List Nat → Nat
  | [] => 0
  | [d] => d
  | low :: high :: rest => ofDigits (base * base) ((low + base * high) :: pairUp base rest)
termination_by ds => ds.length
decreasing_by
  have h := length_pairUp_le base rest
  simp only [List.length_cons]
  omega

theorem foldr_pairUp (base : Nat) (ds : List Nat) :
    (pairUp base ds).foldr (fun d n => d + base * base * n) 0 =
      ds.foldr (fun d n => d + base * n) 0 := by
  fun_induction pairUp base ds with
  | case1 low high rest ih =>
    simp only [List.foldr_cons, ih]
    rw [Nat.mul_add, Nat.mul_assoc, Nat.add_assoc]
  | case2 ds h =>
    match ds, h with
    | [], _ => rfl
    | [d], _ => simp
    | low :: high :: rest, h => exact absurd rfl (h low high rest)

theorem ofDigits_eq_foldr (base : Nat) (ds : List Nat) :
    ofDigits base ds = ds.foldr (fun d n => d + base * n) 0 := by
  fun_induction ofDigits base ds with
  | case1 => rfl
  | case2 base d => simp
  | case3 base low high rest ih => exact ih.trans (foldr_pairUp base (low :: high :: rest))

/-- The value of a text of decimal digits. -/
def decimalValue (t : Text) : Nat := ofDigits 10 (t.reverse.map fun c => c.toNat - 48)

end ForwardIndex.Text
