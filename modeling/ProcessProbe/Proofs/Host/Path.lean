import ProcessProbe.Host.Path

/-!
# Joined paths

A relative path is joined by putting bytes before it, the same ones for every relative path.
-/

namespace ProcessProbe.Path

theorem join_eq_append (p : Path) :
    ∃ before, ∀ child : Path, child.isAbsolute = false → (p.join child).bytes = before ++ child.bytes := by
  by_cases hempty : p.bytes.isEmpty = true
  · exact ⟨[], fun child hchild => by simp [join, hempty]⟩
  · by_cases hlast : p.bytes.getLast? = some separator
    · exact ⟨p.bytes, fun child hchild => by simp [join, hempty, hlast, hchild]⟩
    · exact ⟨p.bytes ++ [separator], fun child hchild => by simp [join, hempty, hlast, hchild]⟩

theorem join_of_not_mem_separator {p child : Path} {before name : Bytes} (hp : p.bytes = before ++ name)
    (hne : name ≠ []) (hname : separator ∉ name) (hchild : child.isAbsolute = false) :
    (p.join child).bytes = before ++ name ++ separator :: child.bytes := by
  have hlast : ¬p.bytes.getLast? = some separator := by
    rw [hp, List.getLast?_append, List.getLast?_eq_some_getLast hne]
    exact fun h => hname (Option.some.inj h ▸ List.getLast_mem hne)
  rw [join, if_neg (by simp [hchild, hp, hne]), if_neg hlast, hp]

end ProcessProbe.Path
