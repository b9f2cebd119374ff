namespace JoinTree.Text

-- The White_Space property.
def isBlank (c : Char) : Bool :=
  let n := c.toNat
  (9 ≤ n && n ≤ 13) || n = 32 || n = 133 || n = 160 || n = 5760 || (8192 ≤ n && n ≤ 8202) ||
    n = 8232 || n = 8233 || n = 8239 || n = 8287 || n = 12288

def trimChars (cs : List Char) : List Char :=
  ((cs.dropWhile isBlank).reverse.dropWhile isBlank).reverse

def trim (s : String) : String := .ofList (trimChars s.toList)

-- Nothing is trimmed from a text that starts and ends with other characters.
theorem trimChars_exact (first : cs.head?.all (!isBlank ·) = true) (last : cs.getLast?.all (!isBlank ·) = true) :
    trimChars cs = cs := by
  have kept (cs : List Char) (first : cs.head?.all (!isBlank ·) = true) : cs.dropWhile isBlank = cs := by
    cases cs with
    | nil => rfl
    | cons c cs => simp_all
  unfold trimChars
  rw [kept cs first,kept cs.reverse (by simpa using last),List.reverse_reverse]

theorem trim_exact {s : String} (first : s.toList.head?.all (!isBlank ·) = true)
    (last : s.toList.getLast?.all (!isBlank ·) = true) : trim s = s := by
  rw [trim,trimChars_exact first last,String.ofList_toList]

theorem isBlank_of_isWhitespace {c : Char} (blank : c.isWhitespace) : isBlank c := by
  simp only [Char.isWhitespace, Bool.or_eq_true, decide_eq_true_eq] at blank
  rcases blank with ((rfl | rfl) | rfl) | rfl <;> decide

end JoinTree.Text
