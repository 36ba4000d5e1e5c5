namespace ScopedLisp.Text

def inRanges (runs : Array (Nat × Nat)) (c : Char) : Bool :=
  runs.any fun run => run.1 ≤ c.toNat && c.toNat ≤ run.2

def dropEnd (p : Char → Bool) (cs : List Char) : List Char := (cs.reverse.dropWhile p).reverse

def strip (p : Char → Bool) (s : String) : String :=
  String.ofList (dropEnd p (s.toList.dropWhile p))

def fields (separator : Char) (s : String) : List String :=
  (s.toList.splitOn separator).map String.ofList

def joinWith (separator : String) : List String → String
  | [] => ""
  | [s] => s
  | s :: t :: rest => s ++ separator ++ joinWith separator (t :: rest)

end ScopedLisp.Text
