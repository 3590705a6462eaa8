import QueryGate.Proofs.NameReading
import QueryGate.Proofs.Outcome
import QueryGate.Proofs.PlainName

/-! What escaping makes of any name: where it stays between its quotes, that it is read back to the name, and that
escaping twice is escaping once. -/
namespace QueryGate.Identifier

def componentOf (d : Dialect) (part : List Char) : Component :=
  if part = ['*'] then .star else .quoted d.quote (quote_mem_quotes d) part

theorem text?_componentOf (d : Dialect) (part : List Char) : (componentOf d part).text? d = some part := by
  unfold componentOf
  split
  next star => exact congrArg some star.symm
  next => exact if_pos rfl

theorem escapePart_eq_write (d : Dialect) {part : List Char} (h : isQuotedChars part = false) :
    escapePart d.quote part = (componentOf d part).write := by
  unfold escapePart componentOf
  rw [h, Bool.false_or]
  by_cases star : part = ['*']
  · rw [if_pos star, if_pos (beq_iff_eq.mpr star), star]
    rfl
  · rw [if_neg star, if_neg fun same => star (beq_iff_eq.mp same)]
    rfl

theorem escapePart_of_isQuotedChars (q : Char) {part : List Char} (h : isQuotedChars part = true) :
    escapePart q part = part := if_pos (by rw [h, Bool.true_or])

theorem isQuotedChars_write {q : Char} (isQuote : q ∈ quotes) (text : List Char) :
    isQuotedChars (Component.quoted q isQuote text).write = true := by
  have last : (q :: (double q text ++ [q])).getLast? = some q := by rw [← List.cons_append, List.getLast?_concat]
  have ends : isQuotedBy q (q :: (double q text ++ [q])) = true := by
    simp only [isQuotedBy, List.head?_cons, last, beq_self_eq_true, Bool.and_self]
  have long : 2 ≤ (q :: (double q text ++ [q])).length := by simp
  simp only [Component.write, isQuotedChars, long, decide_true, Bool.true_and, Bool.or_eq_true]
  rcases List.mem_cons.mp isQuote with rfl | back
  · exact .inl ends
  · obtain rfl := List.mem_singleton.mp back
    exact .inr ends

theorem escapePart_escapePart (d : Dialect) (part : List Char) :
    escapePart d.quote (escapePart d.quote part) = escapePart d.quote part := by
  cases quoted : isQuotedChars part with
  | true => rw [escapePart_of_isQuotedChars _ quoted, escapePart_of_isQuotedChars _ quoted]
  | false =>
    rw [escapePart_eq_write d quoted, componentOf]
    split
    · rfl
    · exact escapePart_of_isQuotedChars _ (isQuotedChars_write _ part)

theorem dot_not_mem_escapePart (d : Dialect) {part : List Char} (h : '.' ∉ part) : '.' ∉ escapePart d.quote part := by
  intro dot
  rcases mem_escapePart dot with inside | quote
  · exact h inside
  · exact quote_ne_dot (quote_mem_quotes d) quote.symm

/-- The texts in a name that escaping takes for quoted by their two ends and leaves as they are. -/
def trusted (s : List Char) : List (List Char) :=
  if isQuotedChars s then [s] else (s.splitOn '.').filter isQuotedChars

/-- A name stays between its quotes unless a text in it that passes for quoted is not. -/
theorem escape_enclosed (d : Dialect) {name : String} (proper : ∀ t ∈ trusted name.toList, Enclosed t) :
    Enclosed (escape d name).toList := by
  unfold trusted at proper
  rw [escape, String.toList_ofList, escapeChars]
  split
  next quoted =>
    rw [if_pos quoted] at proper
    exact proper _ List.mem_cons_self
  next notQuoted =>
    rw [if_neg notQuoted] at proper
    refine Enclosed.intercalate (Splitting.map_splitOn_ne_nil _ '.' _) fun p hp => ?_
    obtain ⟨part, hpart, rfl⟩ := List.mem_map.mp hp
    cases quoted : isQuotedChars part with
    | true =>
      rw [escapePart_of_isQuotedChars _ quoted]
      exact proper part (List.mem_filter.mpr ⟨hpart, quoted⟩)
    | false =>
      rw [escapePart_eq_write d quoted]
      exact .write _

def mixedStyles : String := "\"we\"\"ird\".na\x60me.*"

theorem escape_enclosed_mixedStyles :
    trusted mixedStyles.toList = ["\"we\"\"ird\"".toList] ∧
      escape .mysql mixedStyles = "\"we\"\"ird\".\x60na\x60\x60me\x60.*" ∧
      Enclosed (escape .mysql mixedStyles).toList := by
  have proper : ∀ t ∈ trusted mixedStyles.toList, Enclosed t := by decide
  exact ⟨by decide, by decide, escape_enclosed .mysql proper⟩

def disguisedCondition : String := "\"id\" = 1 OR \"id\""

theorem disguisedCondition_not_enclosed :
    isQuoted disguisedCondition = true ∧ escape .postgres disguisedCondition = disguisedCondition ∧
      ¬ Enclosed (escape .postgres disguisedCondition).toList := by decide

/-- A name that does not pass for quoted, nor does one of its parts. -/
structure IsBare (name : String) : Prop where
  whole : isQuoted name = false
  parts : ∀ part ∈ name.toList.splitOn '.', isQuotedChars part = false

theorem IsBare.escape_eq (d : Dialect) {name : String} (h : IsBare name) :
    (escape d name).toList = writeName ((name.toList.splitOn '.').map (componentOf d)) := by
  have notQuoted : ¬ isQuotedChars name.toList = true := Bool.eq_false_iff.mp h.whole
  rw [escape, String.toList_ofList, escapeChars, if_neg notQuoted, writeName, List.map_map]
  congr 1
  exact List.map_congr_left fun part hp => escapePart_eq_write d (h.parts part hp)

theorem IsBare.unescape (d : Dialect) {name : String} (h : IsBare name) : unescape? d (escape d name) = some name := by
  have texts : ((name.toList.splitOn '.').map (componentOf d)).mapM (Component.text? d) =
      some (name.toList.splitOn '.') := by
    rw [Outcome.mapM_eq_some, List.map_map]
    exact List.map_congr_left fun part _ => text?_componentOf d part
  rw [unescape?, h.escape_eq d, readName?_writeName (Splitting.map_splitOn_ne_nil _ '.' _)]
  simp only [Option.bind_eq_bind, Option.bind_some, texts, List.intercalate_splitOn, String.ofList_toList]
  rfl

/-- A name that does not pass for quoted is read back from what it is escaped to, which no other such name shares. -/
theorem unescape_escape (d : Dialect) {name : String} (h : IsBare name) :
    unescape? d (escape d name) = some name ∧
      ∀ other, IsBare other → escape d other = escape d name → other = name := by
  refine ⟨h.unescape d, fun other bare same => ?_⟩
  have read := bare.unescape d
  rw [same, h.unescape d] at read
  exact (Option.some.inj read).symm

def strayQuotes : String := "\".we\"ird..*"

theorem unescape_escape_strayQuotes :
    IsBare strayQuotes ∧ escape .sqlite strayQuotes = "\"\"\"\".\"we\"\"ird\".\"\".*" ∧
      unescape? .sqlite (escape .sqlite strayQuotes) = some strayQuotes ∧
      ∀ other, IsBare other → escape .sqlite other = escape .sqlite strayQuotes → other = strayQuotes := by
  have bare : IsBare strayQuotes := ⟨by decide, by decide⟩
  exact ⟨bare, by decide, unescape_escape .sqlite bare⟩

def escapeByParts (q : Char) (s : List Char) : List Char :=
  if isQuotedChars s then s
  else if _ : '.' ∈ s then ['.'].intercalate ((s.splitOn '.').attach.map fun part => escapeByParts q part.1)
  else if s = ['*'] then s
  else q :: (double q s ++ [q])
termination_by s.count '.'
decreasing_by
  rw [List.count_eq_zero.mpr (Splitting.not_mem_of_mem_splitOn part.2)]
  exact List.count_pos_iff.mpr ‹_›

theorem escapeByParts_part (q : Char) {part : List Char} (h : '.' ∉ part) :
    escapeByParts q part = escapePart q part := by
  rw [escapeByParts, dif_neg h, escapePart]
  cases isQuotedChars part <;> simp

theorem escapeByParts_eq (q : Char) (s : List Char) : escapeByParts q s = escapeChars q s := by
  by_cases dotted : '.' ∈ s
  · rw [escapeByParts, dif_pos dotted, escapeChars, List.attach_map_val]
    congr 2
    exact List.map_congr_left fun part hp => escapeByParts_part q (Splitting.not_mem_of_mem_splitOn hp)
  · rw [escapeByParts_part q dotted, escapeChars, List.splitOn_eq_singleton dotted, List.map_singleton,
      List.intercalate_singleton]
    split
    next quoted => exact escapePart_of_isQuotedChars q quoted
    next => rfl

theorem escapeChars_escapeChars (d : Dialect) (s : List Char) :
    escapeChars d.quote (escapeChars d.quote s) = escapeChars d.quote s := by
  by_cases quoted : isQuotedChars s = true
  · have asIs : escapeChars d.quote s = s := if_pos quoted
    rw [asIs, asIs]
  · have whole : escapeChars d.quote s = ['.'].intercalate ((s.splitOn '.').map (escapePart d.quote)) := if_neg quoted
    -- no part has a dot, before escaping or after, so the result falls into the same parts
    have parts : (escapeChars d.quote s).splitOn '.' = (s.splitOn '.').map (escapePart d.quote) := by
      rw [whole]
      refine List.splitOn_intercalate '.' (fun piece hp => ?_) (Splitting.map_splitOn_ne_nil _ '.' s)
      obtain ⟨part, hpart, rfl⟩ := List.mem_map.mp hp
      exact dot_not_mem_escapePart d (Splitting.not_mem_of_mem_splitOn hpart)
    rw [escapeChars, parts, List.map_map]
    split
    · rfl
    · rw [whole]
      congr 1
      exact List.map_congr_left fun part _ => escapePart_escapePart d part

/-- Escaping twice is escaping once, and escaping is what the recursion over dotted parts comes to. -/
theorem escape_escape (d : Dialect) (name : String) :
    escape d (escape d name) = escape d name ∧ String.ofList (escapeByParts d.quote name.toList) = escape d name := by
  refine ⟨?_, congrArg String.ofList (escapeByParts_eq d.quote name.toList)⟩
  unfold escape
  rw [String.toList_ofList, escapeChars_escapeChars]

end QueryGate.Identifier
