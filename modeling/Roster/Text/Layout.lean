import Roster.Role

/-!
# Laid-out text

Pieces are written one after another onto a sheet. Each is padded with the fill character up to
the width asked for: after the piece when it stands to the left, before it otherwise. The fill and
the side stay in force for the pieces that follow; a width serves the next piece only. A piece that
is longer than its width is never cut.

Kinds of failure and roles are written by their names, each as one piece. The length of a text is
the number of its bytes, and so is a width; a fill character is meant to be a single byte.
-/

namespace Roster.Text

/-- Where a piece stands within its width. `internal` matters to signed numbers alone; a text
stands to the right under it. -/
inductive Adjust where
  | left
  | right
  | internal
deriving DecidableEq

/-- How the next piece will be laid out. A width of zero or less asks for no padding. -/
structure Layout where
  fill : Char := ' '
  adjust : Adjust := .right
  width : Int := 0
deriving DecidableEq

inductive Content where
  | kind (k : Failure.Kind)
  | role (r : Role)
  | text (s : String)
deriving DecidableEq

def Content.toText : Content → String
  | .kind k => k.name
  | .role r => r.name
  | .text s => s

/-- A piece to be written, with the settings that it changes first. -/
structure Piece where
  fill : Option Char := none
  adjust : Option Adjust := none
  width : Option Int := none
  content : Content
deriving DecidableEq

namespace Layout

def adapt (l : Layout) (p : Piece) : Layout where
  fill := p.fill.getD l.fill
  adjust := p.adjust.getD l.adjust
  width := p.width.getD l.width

def padding (l : Layout) (text : String) : String :=
  String.ofList (List.replicate (l.width.toNat - text.utf8ByteSize) l.fill)

def pad (l : Layout) (text : String) : String :=
  match l.adjust with
  | .left => text ++ l.padding text
  | .right | .internal => l.padding text ++ text

/-- The layout once a piece is written: the width is used up. -/
def spent (l : Layout) : Layout := { l with width := 0 }

end Layout

/-- What has been written so far, and the layout that waits for the next piece. -/
structure Sheet where
  text : String := ""
  layout : Layout := {}
deriving DecidableEq

namespace Sheet

def write (s : Sheet) (p : Piece) : Sheet :=
  let layout := s.layout.adapt p
  { text := s.text ++ layout.pad p.content.toText
    layout := layout.spent }

def writeAll (s : Sheet) (ps : List Piece) : Sheet := ps.foldl write s

@[simp] theorem writeAll_nil (s : Sheet) : s.writeAll [] = s := rfl

end Sheet

def render (ps : List Piece) : Sheet := ({} : Sheet).writeAll ps

/-- The text of one piece written on its own, with no padding asked for. -/
def shown (c : Content) : String := (render [{ content := c }]).text

end Roster.Text
