namespace ActionCatalog.Report

inductive Color
  | red
  | green
  | yellow
  | magenta
  | cyan
deriving DecidableEq

structure Style where
  color : Option Color
  bold : Bool
  dimmed : Bool
deriving DecidableEq

namespace Style

def colored (c : Color) : Style := ⟨some c, false, false⟩

def strong (c : Color) : Style := ⟨some c, true, false⟩

def path : Style := colored .magenta

def locator : Style := colored .green

def label : Style := strong .cyan

def note : Style := ⟨none, false, true⟩

def warning : Style := strong .yellow

def error : Style := strong .red

def caret : Style := colored .red

end Style

structure Piece where
  style : Option Style
  text : String
deriving DecidableEq

def plain (text : String) : Piece := ⟨none, text⟩

def styled (style : Style) (text : String) : Piece := ⟨some style, text⟩

def sequence (code : String) : String := s!"\x1b[{code}m"

def Color.code : Color → String
  | red => "31"
  | green => "32"
  | yellow => "33"
  | magenta => "35"
  | cyan => "36"

def reset : String := sequence "0"

/-- What switches a style on: everything off, then weight and colour. -/
def Style.opening (s : Style) : String :=
  reset ++ (if s.bold then sequence "1" else "") ++ (if s.dimmed then sequence "2" else "") ++
    s.color.elim "" fun c ↦ sequence c.code

def Piece.render (color : Bool) (p : Piece) : String :=
  match p.style with
  | some style => if color then style.opening ++ p.text ++ reset else p.text
  | none => p.text

def render (color : Bool) (pieces : List Piece) : String :=
  String.join (pieces.map (Piece.render color))

end ActionCatalog.Report
