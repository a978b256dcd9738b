/-! Columns of text: a cell is filled with spaces up to a width counted in characters, and is never cut. -/

namespace FilterConsole

def alignLeft (width : Nat) (s : String) : String :=
  String.ofList (s.toList.rightpad width ' ')

def alignRight (width : Nat) (s : String) : String :=
  String.ofList (s.toList.leftpad width ' ')

def columnWidth (heading : String) (cells : List String) : Nat :=
  cells.foldl (fun w s => max w s.length) heading.length

end FilterConsole
