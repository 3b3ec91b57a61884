import NamedArguments.Text.CaseTable

/-!
Lower-casing of whole texts. Each character has its own counterpart, except
that a dotted capital I leaves its dot as a combining character, and a capital
sigma that ends a word becomes the final form of the letter.
-/
namespace NamedArguments.Text

def LowerRun.shift? (run : LowerRun) (code : Nat) : Option Int :=
  if run.first ≤ code ∧ code ≤ run.last ∧ (code - run.first) % run.stride = 0 then some run.shift
  else none

/-- The single lower-case counterpart of a character; most are their own. -/
def lowerChar (c : Char) : Char :=
  match lowerRuns.findSome? fun run => run.shift? c.toNat with
  | some shift => Char.ofNat (c.toNat + shift).toNat
  | none => c

def inRanges (ranges : List (Nat × Nat)) (c : Char) : Bool :=
  ranges.any fun range => range.1 ≤ c.toNat && c.toNat ≤ range.2

def isCased (c : Char) : Bool := inRanges casedRanges c
def isCaseIgnorable (c : Char) : Bool := inRanges caseIgnorableRanges c

/-- Whether the nearest character that is not skipped has case. A character
that is skipped does not count, even if it has case itself. -/
def meetsCased (cs : List Char) : Bool :=
  match cs.dropWhile isCaseIgnorable with
  | [] => false
  | c :: _ => isCased c

/-- Lower-cases the characters that follow `before`, which is kept reversed. -/
def lowerFrom (before : List Char) : List Char → List Char
  | [] => []
  | c :: rest =>
    let here :=
      if c.toNat = 0x3A3 then
        [if meetsCased before && !meetsCased rest then Char.ofNat 0x3C2 else Char.ofNat 0x3C3]
      else if c.toNat = 0x130 then ['i', Char.ofNat 0x307]
      else [lowerChar c]
    here ++ lowerFrom (c :: before) rest

def lower (cs : List Char) : List Char := lowerFrom [] cs

end NamedArguments.Text
