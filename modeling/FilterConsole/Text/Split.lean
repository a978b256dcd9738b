/-! Splitting a text at a separator. -/

namespace FilterConsole

def splitOn (sep : Char) : List Char → List (List Char)
  | [] => [[]]
  | c :: r =>
    if c == sep then [] :: splitOn sep r
    else match splitOn sep r with
      | [] => [[c]]
      | part :: parts => (c :: part) :: parts

end FilterConsole
