import PackageRecipes.Regex.CharSet

/-! Regular expressions, and the match that prefers earlier alternatives. -/
namespace PackageRecipes

namespace Regex

/-- Conditions on the place between two characters. -/
inductive Look where
  | textStart
  | textEnd
  /-- Lines may also end in a carriage return. -/
  | lineStart (carriage : Bool)
  | lineEnd (carriage : Bool)
  | wordBoundary (ascii : Bool)
  | notWordBoundary (ascii : Bool)
  | wordStart (ascii : Bool)
  | wordEnd (ascii : Bool)
  | wordStartHalf (ascii : Bool)
  | wordEndHalf (ascii : Bool)

end Regex

inductive Regex where
  | empty
  | set (chars : Regex.CharSet)
  | look (what : Regex.Look)
  | seq (first second : Regex)
  | alt (preferred other : Regex)
  /-- Any number of times: as often as possible if greedy, else as seldom as possible. -/
  | star (greedy : Bool) (body : Regex)

namespace Regex

/-- A place in a text: the character in front of it, and what follows. -/
structure Cursor where
  before : Option Char
  rest : List Char

def isWord (ascii : Bool) (c : Option Char) : Bool :=
  c.any fun c => isWordChar c && (!ascii || c.toNat < 0x80)

def Look.holds (l : Look) (p : Cursor) : Bool :=
  let after := p.rest.head?
  match l with
  | .textStart => p.before.isNone
  | .textEnd => after.isNone
  | .lineStart false => p.before.all (· = '\n')
  | .lineStart true => p.before.all fun c => c = '\n' || (c = '\r' && after ≠ some '\n')
  | .lineEnd false => after.all (· = '\n')
  | .lineEnd true => after.all fun c => c = '\r' || (c = '\n' && p.before ≠ some '\r')
  | .wordBoundary ascii => isWord ascii p.before != isWord ascii after
  | .notWordBoundary ascii => isWord ascii p.before == isWord ascii after
  | .wordStart ascii => !isWord ascii p.before && isWord ascii after
  | .wordEnd ascii => isWord ascii p.before && !isWord ascii after
  | .wordStartHalf ascii => !isWord ascii p.before
  | .wordEndHalf ascii => !isWord ascii after

/-- The end of the preferred match from a place on, among the ends that `k` accepts. A round of a
repetition that uses up no character is the last one. -/
def matchFrom (r : Regex) (p : Cursor)
    (k : (q : Cursor) → q.rest.length ≤ p.rest.length → Option Cursor) : Option Cursor :=
  match r with
  | .empty => k p (Nat.le_refl _)
  | .set chars =>
    match p with
    | ⟨_, []⟩ => none
    | ⟨_, c :: rest⟩ => if chars.contains c then k ⟨some c, rest⟩ (by simp) else none
  | .look what => if what.holds p then k p (Nat.le_refl _) else none
  | .seq a b => matchFrom a p fun q hq => matchFrom b q fun q' hq' => k q' (Nat.le_trans hq' hq)
  | .alt a b => matchFrom a p k <|> matchFrom b p k
  | .star greedy body =>
    let again : Unit → Option Cursor := fun _ =>
      matchFrom body p fun q hq =>
        if q.rest.length < p.rest.length then
          matchFrom (.star greedy body) q fun q' hq' => k q' (Nat.le_trans hq' hq)
        else k q hq
    if greedy then again () <|> k p (Nat.le_refl _) else k p (Nat.le_refl _) <|> again ()
termination_by (p.rest.length, sizeOf r)
decreasing_by
  all_goals simp_wf
  all_goals first
    | (apply Prod.Lex.right; omega)
    | (rcases Nat.lt_or_eq_of_le hq with h | h
       · exact Prod.Lex.left _ _ h
       · rw [h]; apply Prod.Lex.right; omega)

/-- The end of the preferred match that starts at a place. -/
def matchAt (r : Regex) (p : Cursor) : Option Cursor := r.matchFrom p fun q _ => some q

def concat : List Regex → Regex
  | [] => .empty
  | [r] => r
  | r :: rs => .seq r (concat rs)

/-- One of the alternatives, the first preferred. -/
def oneOf : List Regex → Regex
  | [] => .empty
  | [r] => r
  | r :: rs => .alt r (oneOf rs)

def exactly : (count : Nat) → Regex → Regex
  | 0, _ => .empty
  | 1, r => r
  | count + 2, r => .seq r (exactly (count + 1) r)

def optional (greedy : Bool) (r : Regex) : Regex := if greedy then .alt r .empty else .alt .empty r

/-- Up to so many times, each nested in the one before. -/
def upTo (greedy : Bool) : (count : Nat) → Regex → Regex
  | 0, _ => .empty
  | 1, r => optional greedy r
  | count + 2, r => optional greedy (.seq r (upTo greedy (count + 1) r))

/-- At least `low` and at most `high` times. -/
def times (low : Nat) (high : Option Nat) (greedy : Bool) (r : Regex) : Regex :=
  match high with
  | none => if low = 0 then .star greedy r else .seq (exactly low r) (.star greedy r)
  | some h => if low = 0 then upTo greedy h r else
      if low = h then exactly low r else .seq (exactly low r) (upTo greedy (h - low) r)

/-- A measure of the machine that matches the expression; sets count by how varied they are. -/
def cost : Regex → Nat
  | .empty => 1
  | .look _ => 1
  | .set (.range a b) => if a = b then a.utf8Size else 4
  | .set .word => 1700
  | .set (.complement .word) => 1700
  | .set _ => 40
  | .seq a b => a.cost + b.cost
  | .alt a b => a.cost + b.cost + 2
  | .star _ a => a.cost + 1

end Regex

end PackageRecipes
