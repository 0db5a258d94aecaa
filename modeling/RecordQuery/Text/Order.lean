/-! The order of texts by their code points, which is also the order of their UTF-8 bytes. -/
namespace RecordQuery.Text

def order : List Char → List Char → Ordering
  | [], [] => .eq
  | [], _ :: _ => .lt
  | _ :: _, [] => .gt
  | c :: s, d :: t =>
    if c.toNat < d.toNat then .lt
    else if d.toNat < c.toNat then .gt
    else order s t

theorem orderEqIff {s t : List Char} : order s t = .eq ↔ s = t := by
  fun_induction order s t with
  | case1 => simp
  | case2 => simp
  | case3 => simp
  | case4 c s d t less =>
    have different : c ≠ d := fun same => by simp [same] at less
    simp [different]
  | case5 c s d t _ greater =>
    have different : c ≠ d := fun same => by simp [same] at greater
    simp [different]
  | case6 c s d t notLess notGreater ih =>
    have same : c = d := Char.toNat_inj.mp (by omega)
    simp [same, ih]

theorem orderSwap (s t : List Char) : (order s t).swap = order t s := by
  fun_induction order s t with
  | case1 => rfl
  | case2 => rfl
  | case3 => rfl
  | case4 c s d t less =>
    have notGreater : ¬ d.toNat < c.toNat := by omega
    simp [order, less, notGreater]
  | case5 c s d t notLess greater =>
    simp [order, greater]
  | case6 c s d t notLess notGreater ih =>
    simp [order, notLess, notGreater, ih]

end RecordQuery.Text
