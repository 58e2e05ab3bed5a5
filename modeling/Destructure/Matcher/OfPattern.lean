/-
  Destructure/Matcher/OfPattern.lean
  ==================================
  **From patterns to matchers** — an array pattern becomes its chain of matchers,
  the item at each place with its index. The empty array is a sequence that ends
  at index zero; a chain without a splat is closed by its last element, a chain
  of one element by the end behind it; a splat takes the remainder. A splat that
  other items follow has no matcher: patterns are checked for that before.

  Mirrors `MatcherLoweringVisitor` of the program.
-/
import Destructure.Matcher.Basic
import Destructure.Pattern.Basic

namespace Destructure

def strayedSplat : Failure := .internal "non-trailing splat reached lowering" "E9999"

def Name.toMatcher (source : String) (n : Name) : Matcher :=
  .capture n.text (some (n.extent.within source))

def Splat.toMatcher (source : String) : Splat → Matcher
  | named _ name => name.toMatcher source
  | anonymous e => .anything (some (e.within source))

/-- The matcher of a splat at an index; `owner` is the part of the pattern that
    it closes. -/
def Splat.closing (source : String) (owner : Extent) (index : Int) (s : Splat) : Matcher :=
  let origin := some (owner.within source)
  .remainder (s.toMatcher source) (.nothing (index + 1) origin) index origin

mutual

def Pattern.toMatcher (source : String) : Pattern Literal → Except Failure Matcher
  | .literal e v => .ok (.literal v (some (e.within source)))
  | .name n => .ok (n.toMatcher source)
  | .empty e => .ok (.nothing 0 (some (e.within source)))
  | .array _ es => es.toMatcher source

def Elements.toMatcher (source : String) : Elements Literal → Except Failure Matcher
  | .one e (.splat s) => .ok (s.closing source e 0)
  | .one e (.pattern p) => do
    let origin := some (e.within source)
    return .item (← p.toMatcher source) (.nothing 1 origin) 0 origin
  | .more _ (.splat _) _ => .error strayedSplat
  | .more e (.pattern p) c => do
    let tail ← c.toMatcher source 1
    return .item (← p.toMatcher source) tail 0 (some (e.within source))

/-- The matcher of a chain whose first item has the given index. -/
def Chain.toMatcher (source : String) (index : Int) : Chain Literal → Except Failure Matcher
  | .link _ (.splat _) _ => .error strayedSplat
  | .link e (.pattern p) c => do
    let head ← p.toMatcher source
    let tail ← c.toMatcher source (index + 1)
    return .item head tail index (some (e.within source))
  | .last e p => do return .last (← p.toMatcher source) index (some (e.within source))
  | .lastSplat e s => .ok (s.closing source e index)

end

end Destructure
