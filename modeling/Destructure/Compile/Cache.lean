/-
  Destructure/Compile/Cache.lean
  ==============================
  **The cache of compiled patterns** — holds the most recently requested texts,
  up to a fixed number, with what they were compiled to. A request for a text
  that is held is a hit and makes it the most recent; any other is a miss, and
  what comes of it is held if it is a success, in place of the text that has
  waited longest where there is no room. Each compiled pattern carries the number
  of the miss that made it, by which it can be told from another of the same
  text.

  Mirrors `compile_pattern` of the program with the cache around it.
-/
import Destructure.Compile.Compilation

namespace Destructure

/-- A compiled pattern and the request that made it. -/
structure Held where
  serial : Nat
  pattern : CompiledPattern

/-- A cache, the most recent entry first, with its tallies. -/
structure Cache where
  entries : List (String × Held)
  hits : Nat
  misses : Nat

namespace Cache

/-- The number of texts that are held at most. -/
def capacity : Nat := 512

def empty : Cache := ⟨[], 0, 0⟩

def size (c : Cache) : Nat := c.entries.length

/-- The compiled pattern of a text, held or new, and the cache behind the
    request. -/
def request (c : Cache) (source : String) : Except Failure Held × Cache :=
  match c.entries.lookup source with
  | some held =>
    let others := c.entries.filter (·.1 != source)
    (.ok held, { c with entries := (source, held) :: others, hits := c.hits + 1 })
  | none =>
    match compilePattern source with
    | .error f => (.error f, { c with misses := c.misses + 1 })
    | .ok p =>
      let held := ⟨c.misses, p⟩
      (.ok held,
        { c with entries := ((source, held) :: c.entries).take capacity, misses := c.misses + 1 })

end Cache

end Destructure
