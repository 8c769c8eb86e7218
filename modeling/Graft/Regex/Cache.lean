import Graft.Regex.Basic
import Std.Data.HashMap
/-!
# A cache of compiled patterns

Patterns that were compiled once are kept, up to a fixed number; a full cache is emptied before the next pattern is
compiled. A pattern that cannot be compiled is not kept.
-/

namespace Graft.Regex

structure Cache where
  entries : Std.HashMap String Regex

namespace Cache

def empty : Cache := ⟨∅⟩

def size (c : Cache) : Nat := c.entries.size

def capacity : Nat := 256

/-- The pattern compiled, and the cache afterwards. -/
def compile? (c : Cache) (pattern : String) : Option Regex × Cache :=
  match c.entries[pattern]? with
  | some r => (some r, c)
  | none =>
    let room := if capacity ≤ c.size then empty else c
    match Regex.compile? pattern with
    | some r => (some r, ⟨room.entries.insert pattern r⟩)
    | none => (none, room)

end Cache
end Graft.Regex
