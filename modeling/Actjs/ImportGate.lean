import Actjs.Auth
import Mathlib.Data.List.DropRight

/-!
# The gate against imports

A source may not import or export anything. Before the gate looks for a line that begins
with either word, comments are taken out of the source, in two passes over the whole of
it: line comments first, and block comments then.

In the language the comment that opens first decides. The two agree on a source whose
block comments the first pass does not open – no `//` stands in the last line of one, nor
across its end – and whose line comments end where the first pass says they do. Where they
do not agree a line is hidden from the gate, or one that is commented out is shown to it.
-/

namespace ImportGate

/-! ## The gate -/

/-- Two characters stand somewhere in a text, one right behind the other. -/
def occurs (x y : Char) : List Char → Bool
  | [] => false
  | c :: rest => (c == x && rest.head? == some y) || occurs x y rest

mutual

/-- `replace(/\/\/[^\n]*/g, '')` -/
def stripLineComments : List Char → List Char
  | [] => []
  | '/' :: '/' :: rest => skipLine rest
  | c :: rest => c :: stripLineComments rest

/-- To the end of the line. -/
def skipLine : List Char → List Char
  | [] => []
  | '\n' :: rest => '\n' :: stripLineComments rest
  | _ :: rest => skipLine rest

end

mutual

/-- `replace(/\/\*[\s\S]*?\*\//g, '')` -/
def stripBlockComments : List Char → List Char
  | [] => []
  | '/' :: '*' :: rest =>
    if occurs '*' '/' rest then skipBlock rest else '/' :: '*' :: stripBlockComments rest
  | c :: rest => c :: stripBlockComments rest

/-- To the end of the block comment. -/
def skipBlock : List Char → List Char
  | [] => []
  | '*' :: '/' :: rest => stripBlockComments rest
  | _ :: rest => skipBlock rest

end

/-- `\w` -/
def isWordChar (c : Char) : Bool := c.isAlphanum || c == '_'

/-- `\b`, behind a word. -/
def wordEnds (s : List Char) : Bool := !s.head?.any isWordChar

/-- `[ \t]*(import|export)\b` -/
def importsHere (s : List Char) : Bool :=
  let s := s.dropWhile (fun c => c == ' ' || c == '\t')
  ["import".toList, "export".toList].any (fun w => w.isPrefixOf s && wordEnds (s.drop w.length))

/-- `/^[ \t]*(import|export)\b[^\n]*/m`: the first match, if any; `start` says whether a line
begins here. -/
def execImport (start : Bool) : List Char → Option (List Char)
  | [] => none
  | c :: rest =>
    if start && importsHere (c :: rest) then some ((c :: rest).takeWhile (fun c => c != '\n'))
    else execImport (isLineTerminator c) rest

/-- `trim` -/
def trimText (s : List Char) : List Char := (s.dropWhile isJsSpace).rdropWhile isJsSpace

/-- **`findForbiddenImport`**. -/
def findForbiddenImport (source : String) : Option String :=
  let stripped := stripBlockComments (stripLineComments source.toList)
  (execImport true stripped).map (fun m => String.ofList (trimText m))

/-! ## The language's comments -/

mutual

/-- A text without its comments, by the language's rule: the comment that opens first is
taken out, a line comment to the end of the line, and a block comment to where it is
closed, if it is. -/
def stripComments : List Char → List Char
  | [] => []
  | '/' :: '/' :: rest => endLineComment rest
  | '/' :: '*' :: rest =>
    if occurs '*' '/' rest then endBlockComment rest else '/' :: '*' :: stripComments rest
  | c :: rest => c :: stripComments rest

/-- To the end of the line, as the language has it. -/
def endLineComment : List Char → List Char
  | [] => []
  | c :: rest => if isLineTerminator c then c :: stripComments rest else endLineComment rest

/-- To the end of the block comment. -/
def endBlockComment : List Char → List Char
  | [] => []
  | '*' :: '/' :: rest => stripComments rest
  | _ :: rest => endBlockComment rest

end

/-- **Some line of a text begins with `import` or `export`**, after spaces and tabs. -/
def ImportsOrExports (s : List Char) : Prop :=
  ∃ line ∈ s.splitOnP isLineTerminator, importsHere line = true

/-! ## Sources that the two passes read aright

The condition on a source, said of its comments as the language reads them. -/

/-- The last line of a text, as the first pass has lines. -/
def lastLine : List Char → List Char
  | [] => []
  | c :: rest => if '\n' ∈ c :: rest then lastLine rest else c :: rest

/-- A space, a tab or the end of a line. -/
def isBlank (c : Char) : Bool := c == ' ' || c == '\t' || isLineTerminator c

/-- **Comments are where the first pass leaves them**: behind a line comment nothing is left
of the line but blanks, and no `//` stands in the last line of a block comment nor across
its end. -/
inductive CommentsApart : List Char → Prop
  | nil : CommentsApart []
  | line {comment blank after : List Char} (hcomment : ∀ c ∈ comment, isLineTerminator c = false)
      (hends : ∀ c ∈ blank.head?, isLineTerminator c = true)
      (hblank : ∀ c ∈ blank, isBlank c = true ∧ c ≠ '\n') (hafter : ∀ c ∈ after.head?, c = '\n') :
      CommentsApart after → CommentsApart ('/' :: '/' :: (comment ++ (blank ++ after)))
  | block {inner after : List Char} (hinner : occurs '*' '/' inner = false)
      (hlast : occurs '/' '/' (lastLine inner ++ '*' :: '/' :: after.take 1) = false) :
      CommentsApart after → CommentsApart ('/' :: '*' :: (inner ++ '*' :: '/' :: after))
  | unclosed {rest : List Char} (hrest : occurs '*' '/' rest = false) :
      CommentsApart rest → CommentsApart ('/' :: '*' :: rest)
  | other {c : Char} {rest : List Char}
      (hc : c = '/' → rest.head? ≠ some '/' ∧ rest.head? ≠ some '*') :
      CommentsApart rest → CommentsApart (c :: rest)

/-- What has no `/` opens no comment. -/
theorem CommentsApart.append {a s : List Char} (ha : '/' ∉ a) (h : CommentsApart s) :
    CommentsApart (a ++ s) := by
  induction a with
  | nil => exact h
  | cons c a ih =>
    obtain ⟨hc, ha⟩ := not_or.mp (List.mem_cons.not.mp ha)
    exact .other (fun heq => absurd heq.symm hc) (ih ha)

/-! ## Pairs of characters -/

section Occurs

variable {x y c : Char} {a b s : List Char}

theorem occurs_cons : occurs x y (c :: s) = ((c == x && s.head? == some y) || occurs x y s) := rfl

theorem occurs_tail (h : occurs x y (c :: s) = false) : occurs x y s = false :=
  (Bool.or_eq_false_iff.mp h).2

/-- A pair in the beginning is a pair of the whole. -/
theorem occurs_of_append (h : occurs x y (a ++ b) = false) : occurs x y a = false := by
  induction a with
  | nil => rfl
  | cons c a ih =>
    obtain ⟨hhead, htail⟩ := Bool.or_eq_false_iff.mp h
    refine Bool.or_eq_false_iff.mpr ⟨?_, ih htail⟩
    cases a with
    | nil => simp
    | cons d a => exact hhead

theorem occurs_of_prefix (h : a <+: s) (hs : occurs x y s = false) : occurs x y a = false := by
  obtain ⟨b, rfl⟩ := h
  exact occurs_of_append hs

/-- No pair stands across another character. -/
theorem occurs_append_cons (hx : c ≠ x) (hy : c ≠ y) :
    occurs x y (a ++ c :: b) = (occurs x y a || occurs x y b) := by
  induction a with
  | nil => simp [occurs, hx]
  | cons d a ih =>
    rw [List.cons_append, occurs_cons, occurs_cons, ih, Bool.or_assoc]
    cases a with
    | nil => simp [hy]
    | cons e a => rfl

end Occurs

/-! ## What the passes do -/

section Passes

variable {c : Char} {a b s after inner : List Char}

theorem stripLineComments_cons (h : c = '/' → s.head? ≠ some '/') :
    stripLineComments (c :: s) = c :: stripLineComments s := by
  rw [stripLineComments]
  rintro rest rfl rfl
  exact h rfl rfl

theorem stripLineComments_cons_of_ne (h : c ≠ '/') :
    stripLineComments (c :: s) = c :: stripLineComments s :=
  stripLineComments_cons (fun hc => absurd hc h)

theorem stripBlockComments_cons (h : c = '/' → s.head? ≠ some '*') :
    stripBlockComments (c :: s) = c :: stripBlockComments s := by
  rw [stripBlockComments]
  rintro rest rfl rfl
  exact h rfl rfl

theorem stripComments_cons (h : c = '/' → s.head? ≠ some '/' ∧ s.head? ≠ some '*') :
    stripComments (c :: s) = c :: stripComments s := by
  rw [stripComments]
  · rintro rest rfl rfl
    exact (h rfl).1 rfl
  · rintro rest rfl rfl
    exact (h rfl).2 rfl

theorem skipBlock_cons (h : c = '*' → s.head? ≠ some '/') : skipBlock (c :: s) = skipBlock s := by
  rw [skipBlock]
  rintro rest rfl rfl
  exact h rfl rfl

theorem endBlockComment_cons (h : c = '*' → s.head? ≠ some '/') :
    endBlockComment (c :: s) = endBlockComment s := by
  rw [endBlockComment]
  rintro rest rfl rfl
  exact h rfl rfl

theorem skipLine_append (ha : ∀ c ∈ a, c ≠ '\n') : skipLine (a ++ b) = skipLine b := by
  induction a with
  | nil => rfl
  | cons c a ih =>
    obtain ⟨hc, ha⟩ := List.forall_mem_cons.mp ha
    rw [List.cons_append, skipLine, ih ha]
    exact fun h => hc h

/-- A line that is passed over ends where the text does, or at the end of the line. -/
theorem skipLine_after (h : ∀ c ∈ after.head?, c = '\n') :
    skipLine after = stripLineComments after := by
  cases after with
  | nil => rfl
  | cons c after =>
    obtain rfl := h c rfl
    rw [skipLine, stripLineComments_cons_of_ne (by decide)]

/-- Without a pair there is nothing to take out. -/
theorem stripLineComments_append (h : occurs '/' '/' (a ++ b.take 1) = false) :
    stripLineComments (a ++ b) = a ++ stripLineComments b := by
  induction a with
  | nil => rfl
  | cons c a ih =>
    obtain ⟨hhead, htail⟩ := Bool.or_eq_false_iff.mp h
    rw [List.cons_append, stripLineComments_cons, ih htail, List.cons_append]
    rintro rfl hslash
    cases a with
    | nil =>
      cases b with
      | nil => simp at hslash
      | cons d b => simp_all
    | cons d a => simp_all

/-- **A line** is taken out from the first `//` on, and its end stays. -/
theorem stripLineComments_line (ha : ∀ c ∈ a, c ≠ '\n') :
    stripLineComments a <+: a ∧ ∀ b, stripLineComments (a ++ '\n' :: b)
      = stripLineComments a ++ '\n' :: stripLineComments b := by
  induction a with
  | nil =>
    exact ⟨List.prefix_refl _, fun b => stripLineComments_cons_of_ne (by decide)⟩
  | cons c a ih =>
    obtain ⟨hc, ha⟩ := List.forall_mem_cons.mp ha
    by_cases hopen : c = '/' ∧ a.head? = some '/'
    · obtain ⟨rfl, hhead⟩ := hopen
      obtain ⟨a, rfl⟩ := List.head?_eq_some_iff.mp hhead
      have hskip : ∀ c ∈ a, c ≠ '\n' := fun c hc => ha c (by simp [hc])
      have hnone : stripLineComments ('/' :: '/' :: a) = [] := by
        rw [stripLineComments, ← List.append_nil a, skipLine_append hskip, skipLine]
      refine ⟨hnone ▸ List.nil_prefix, fun b => ?_⟩
      rw [hnone, List.cons_append, List.cons_append, stripLineComments, skipLine_append hskip,
        skipLine]
      rfl
    · obtain ⟨hbegin, hline⟩ := ih ha
      have hkept : stripLineComments (c :: a) = c :: stripLineComments a :=
        stripLineComments_cons (fun hc hslash => hopen ⟨hc, hslash⟩)
      refine ⟨hkept ▸ List.cons_prefix_cons.mpr ⟨rfl, hbegin⟩, fun b => ?_⟩
      rw [hkept, List.cons_append, stripLineComments_cons, hline, List.cons_append]
      intro hc hslash
      cases a with
      | nil => simp at hslash
      | cons d a => exact hopen ⟨hc, hslash⟩

theorem lastLine_append (l v : List Char) : lastLine (l ++ '\n' :: v) = lastLine v := by
  induction l with
  | nil =>
    rw [List.nil_append, lastLine, if_pos List.mem_cons_self]
  | cons c l ih =>
    rw [List.cons_append, lastLine, if_pos (by simp), ih]

theorem lastLine_of_notMem (h : '\n' ∉ a) : lastLine a = a := by
  cases a with
  | nil => rfl
  | cons c a => rw [lastLine, if_neg h]

/-- **Of a block comment the first pass leaves the end.** -/
theorem stripLineComments_block (hinner : occurs '*' '/' inner = false)
    (hlast : occurs '/' '/' (lastLine inner ++ '*' :: '/' :: after.take 1) = false) :
    ∃ kept, occurs '*' '/' kept = false ∧ stripLineComments (inner ++ '*' :: '/' :: after)
      = kept ++ '*' :: '/' :: stripLineComments after := by
  induction hn : inner.length using Nat.strong_induction_on generalizing inner with
  | h n ih =>
    by_cases hline : '\n' ∈ inner
    · obtain ⟨l, v, rfl, hl⟩ := List.eq_append_cons_of_mem hline
      rw [occurs_append_cons (by decide) (by decide), Bool.or_eq_false_iff] at hinner
      rw [lastLine_append] at hlast
      obtain ⟨kept, hkept, hrest⟩ := ih v.length (by simp at hn; omega) hinner.2 hlast rfl
      obtain ⟨hbegin, hcut⟩ := stripLineComments_line (fun c hc h => hl (h ▸ hc))
      refine ⟨stripLineComments l ++ '\n' :: kept, ?_, ?_⟩
      · rw [occurs_append_cons (by decide) (by decide), occurs_of_prefix hbegin hinner.1, hkept]
        rfl
      · rw [List.append_assoc, List.cons_append, hcut, hrest, List.append_assoc, List.cons_append]
    · rw [lastLine_of_notMem hline] at hlast
      refine ⟨inner, hinner, ?_⟩
      have hpair : occurs '/' '/' ((inner ++ ['*', '/']) ++ after.take 1) = false := by
        simpa using hlast
      have h := stripLineComments_append hpair
      simpa using h

/-- No pair comes of what the first pass takes out. -/
theorem occurs_stripLineComments (h : occurs '*' '/' s = false) :
    occurs '*' '/' (stripLineComments s) = false := by
  induction hn : s.length using Nat.strong_induction_on generalizing s with
  | h n ih =>
    by_cases hline : '\n' ∈ s
    · obtain ⟨l, v, rfl, hl⟩ := List.eq_append_cons_of_mem hline
      rw [occurs_append_cons (by decide) (by decide), Bool.or_eq_false_iff] at h
      obtain ⟨hbegin, hcut⟩ := stripLineComments_line (fun c hc h => hl (h ▸ hc))
      rw [hcut, occurs_append_cons (by decide) (by decide), occurs_of_prefix hbegin h.1,
        ih v.length (by simp at hn; omega) h.2 rfl]
      rfl
    · exact occurs_of_prefix (stripLineComments_line (fun c hc h => hline (h ▸ hc))).1 h

/-- The end of a block comment is where it is closed first. -/
theorem occurs_block (inner after : List Char) :
    occurs '*' '/' (inner ++ '*' :: '/' :: after) = true := by
  induction inner with
  | nil => rfl
  | cons c inner ih => rw [List.cons_append, occurs_cons, ih, Bool.or_true]

theorem head?_of_occurs (h : occurs '*' '/' (c :: inner) = false) (hc : c = '*') :
    (inner ++ '*' :: '/' :: after).head? ≠ some '/' := by
  cases inner with
  | nil => simp
  | cons d inner =>
    rw [occurs_cons, hc] at h
    simp_all

theorem skipBlock_block (h : occurs '*' '/' inner = false) :
    skipBlock (inner ++ '*' :: '/' :: after) = stripBlockComments after := by
  induction inner with
  | nil => rfl
  | cons c inner ih =>
    rw [List.cons_append, skipBlock_cons (head?_of_occurs h), ih (occurs_tail h)]

theorem endBlockComment_block (h : occurs '*' '/' inner = false) :
    endBlockComment (inner ++ '*' :: '/' :: after) = stripComments after := by
  induction inner with
  | nil => rfl
  | cons c inner ih =>
    rw [List.cons_append, endBlockComment_cons (head?_of_occurs h), ih (occurs_tail h)]

theorem endLineComment_append (h : ∀ c ∈ a, isLineTerminator c = false) :
    endLineComment (a ++ b) = endLineComment b := by
  induction a with
  | nil => rfl
  | cons c a ih =>
    obtain ⟨hc, ha⟩ := List.forall_mem_cons.mp h
    rw [List.cons_append, endLineComment, hc, ih ha]
    rfl

theorem endLineComment_after (h : ∀ c ∈ after.head?, isLineTerminator c = true) :
    endLineComment after = stripComments after := by
  cases after with
  | nil => rfl
  | cons c after =>
    have hc := h c rfl
    rw [endLineComment, if_pos hc, stripComments_cons]
    rintro rfl
    exact absurd hc (by decide)

/-- Blanks are no comments. -/
theorem stripComments_blank (h : ∀ c ∈ a, isBlank c = true) :
    stripComments (a ++ b) = a ++ stripComments b := by
  induction a with
  | nil => rfl
  | cons c a ih =>
    obtain ⟨hc, ha⟩ := List.forall_mem_cons.mp h
    rw [List.cons_append, stripComments_cons, ih ha, List.cons_append]
    rintro rfl
    exact absurd hc (by decide)

end Passes

/-! ## The two passes and the language

On such a source the passes leave what the language leaves, up to blanks. -/

/-- One text is another but for blanks at the end of a line, where a line ended already. -/
inductive ButBlanks : List Char → List Char → Prop
  | nil : ButBlanks [] []
  | cons (c : Char) {s t : List Char} : ButBlanks s t → ButBlanks (c :: s) (c :: t)
  | blank {w s t : List Char} (hends : ∀ c ∈ w.head?, isLineTerminator c = true)
      (hblank : ∀ c ∈ w, isBlank c = true) (hs : ∀ c ∈ s.head?, c = '\n') :
      ButBlanks s t → ButBlanks (w ++ s) t

theorem stripComments_head? {after : List Char} (h : ∀ c ∈ after.head?, c = '\n') :
    ∀ c ∈ (stripComments after).head?, c = '\n' := by
  cases after with
  | nil => simp [stripComments]
  | cons c after =>
    obtain rfl := h c rfl
    rw [stripComments_cons (fun h => absurd h (by decide))]
    simp

/-- **What the two passes leave is what the language leaves**, but for blanks, of a source
whose comments stand apart. -/
theorem CommentsApart.butBlanks {s : List Char} (h : CommentsApart s) :
    ButBlanks (stripComments s) (stripBlockComments (stripLineComments s)) := by
  induction h with
  | nil => exact .nil
  | @line comment blank after hcomment hends hblank hafter _ ih =>
    have hskip : skipLine (comment ++ (blank ++ after)) = stripLineComments after := by
      rw [skipLine_append, skipLine_append (fun c hc => (hblank c hc).2), skipLine_after hafter]
      rintro c hc rfl
      exact absurd (hcomment _ hc) (by decide)
    have hlang : endLineComment (comment ++ (blank ++ after)) = blank ++ stripComments after := by
      rw [endLineComment_append hcomment, endLineComment_after,
        stripComments_blank (fun c hc => (hblank c hc).1)]
      cases blank with
      | nil => exact fun c hc => hafter c hc ▸ (by decide)
      | cons d blank => exact hends
    rw [stripComments, hlang, stripLineComments, hskip]
    exact .blank hends (fun c hc => (hblank c hc).1) (stripComments_head? hafter) ih
  | @block inner after hinner hlast _ ih =>
    obtain ⟨kept, hkept, hstrip⟩ := stripLineComments_block hinner hlast
    have hopen : stripLineComments ('/' :: '*' :: (inner ++ '*' :: '/' :: after))
        = '/' :: '*' :: (kept ++ '*' :: '/' :: stripLineComments after) := by
      rw [stripLineComments_cons (by simp),
        stripLineComments_cons_of_ne (by decide), hstrip]
    rw [hopen, stripComments, stripBlockComments, if_pos (occurs_block _ _),
      if_pos (occurs_block _ _), endBlockComment_block hinner, skipBlock_block hkept]
    exact ih
  | @unclosed rest hrest _ ih =>
    have hopen : stripLineComments ('/' :: '*' :: rest) = '/' :: '*' :: stripLineComments rest := by
      rw [stripLineComments_cons (by simp), stripLineComments_cons_of_ne (by decide)]
    rw [hopen, stripComments, stripBlockComments, if_neg (Bool.eq_false_iff.mp hrest),
      if_neg (Bool.eq_false_iff.mp (occurs_stripLineComments hrest))]
    exact .cons _ (.cons _ ih)
  | @other c rest hc _ ih =>
    rw [stripComments_cons hc, stripLineComments_cons (fun h => (hc h).1), stripBlockComments_cons]
    · exact .cons c ih
    · intro hslash
      cases rest with
      | nil => simp [stripLineComments]
      | cons d rest =>
        obtain ⟨hline, hblock⟩ := hc hslash
        rw [stripLineComments_cons (fun h => absurd (h ▸ rfl) hline)]
        exact hblock

/-! ## Lines -/

section Lines

variable {s t w : List Char}

/-- What there is of a line from here on. -/
def restOfLine (s : List Char) : List Char := s.takeWhile (fun c => !isLineTerminator c)

theorem restOfLine_cons (c : Char) (s : List Char) :
    restOfLine (c :: s) = if isLineTerminator c then [] else c :: restOfLine s := by
  rw [restOfLine, List.takeWhile_cons]
  cases isLineTerminator c <;> rfl

/-- The four ends of a line. -/
theorem eq_of_isLineTerminator {c : Char} (h : isLineTerminator c = true) :
    c ∈ ['\n', '\r', '\u2028', '\u2029'] := by
  have hnat : ∀ d : Char, c.toNat = d.toNat → c = d := fun d hd => Char.ext (UInt32.toNat_inj.mp hd)
  obtain h | h | h | h : c.toNat = 10 ∨ c.toNat = 13 ∨ c.toNat = 0x2028 ∨ c.toNat = 0x2029 := by
    simpa [isLineTerminator] using h
  · simp [hnat '\n' h]
  · simp [hnat '\r' h]
  · simp [hnat '\u2028' h]
  · simp [hnat '\u2029' h]

theorem not_isWordChar {c : Char} (h : isLineTerminator c = true) : isWordChar c = false := by
  have hall : ['\n', '\r', '\u2028', '\u2029'].all (fun c => !isWordChar c) = true := by decide
  exact Bool.not_eq_true' _ ▸ List.all_eq_true.mp hall c (eq_of_isLineTerminator h)

/-- A word stands in front of a text, and ends there, if and only if it does in the line. -/
theorem word_restOfLine {word : List Char}
    (hword : word.all (fun c => !isLineTerminator c) = true) (s : List Char) :
    (word.isPrefixOf (restOfLine s) && wordEnds ((restOfLine s).drop word.length))
      = (word.isPrefixOf s && wordEnds (s.drop word.length)) := by
  induction word generalizing s with
  | nil =>
    cases s with
    | nil => rfl
    | cons d s =>
      rw [restOfLine_cons]
      split
      · next hd => simp [wordEnds, not_isWordChar hd]
      · rfl
  | cons c word ih =>
    obtain ⟨hc, hword⟩ := Bool.and_eq_true_iff.mp (List.all_cons ▸ hword)
    cases s with
    | nil => rfl
    | cons d s =>
      rw [restOfLine_cons]
      split
      · next hd =>
        have hne : (c == d) = false := by
          refine beq_eq_false_iff_ne.mpr (fun heq => ?_)
          rw [heq, hd] at hc
          exact absurd hc (by decide)
        simp [List.isPrefixOf, hne]
      · simp only [List.isPrefixOf, List.length_cons, List.drop_succ_cons, Bool.and_assoc,
          ih hword s]

/-- Whether an import stands here is seen from the line. -/
theorem importsHere_restOfLine (s : List Char) : importsHere (restOfLine s) = importsHere s := by
  have hdrop : (restOfLine s).dropWhile (fun c => c == ' ' || c == '\t')
      = restOfLine (s.dropWhile (fun c => c == ' ' || c == '\t')) := by
    induction s with
    | nil => rfl
    | cons c s ih =>
      rw [List.dropWhile_cons]
      split
      · next hc =>
        have hline : isLineTerminator c = false := by
          obtain rfl | rfl : c = ' ' ∨ c = '\t' := by simpa using hc
          · decide
          · decide
        rw [restOfLine_cons, hline, ← ih]
        simp [hc]
      · next hc =>
        rw [restOfLine_cons]
        split
        · rfl
        · rw [List.dropWhile_cons, if_neg hc]
  unfold importsHere
  rw [hdrop]
  simp only [List.any_cons, List.any_nil, Bool.or_false]
  rw [word_restOfLine (by decide), word_restOfLine (by decide)]

theorem importsHere_of_blank (h : ∀ c ∈ restOfLine s, isBlank c = true) :
    importsHere s = false := by
  rw [← importsHere_restOfLine]
  have hnone : (restOfLine s).dropWhile (fun c => c == ' ' || c == '\t') = [] := by
    refine List.dropWhile_eq_nil_iff.mpr (fun c hc => ?_)
    have hline := List.mem_takeWhile_imp hc
    have := h c hc
    unfold isBlank at this
    simp_all
  unfold importsHere
  rw [hnone]
  rfl

/-- What there is of a line that ends behind `w`. -/
theorem restOfLine_append (w : List Char) (hs : ∀ c ∈ s.head?, c = '\n') :
    restOfLine (w ++ s) <+: w := by
  induction w with
  | nil =>
    cases s with
    | nil => exact List.prefix_refl _
    | cons d s =>
      rw [hs d rfl]
      exact List.prefix_refl _
  | cons c w ih =>
    rw [List.cons_append, restOfLine_cons]
    split
    · exact List.nil_prefix
    · exact List.cons_prefix_cons.mpr ⟨rfl, ih⟩

theorem ButBlanks.restOfLine_eq (h : ButBlanks s t) : restOfLine s = restOfLine t := by
  induction h with
  | nil => rfl
  | @cons c s t _ ih =>
    unfold restOfLine at ih ⊢
    rw [List.takeWhile_cons, List.takeWhile_cons, ih]
  | @blank w s t hends hblank hs _ ih =>
    cases w with
    | nil => exact ih
    | cons c w =>
      have hline : restOfLine s = [] := List.prefix_nil.mp (restOfLine_append [] hs)
      rw [← ih, hline, restOfLine, List.cons_append, List.takeWhile_cons, hends c rfl]
      rfl

theorem execImport_cons_isSome (start : Bool) (c : Char) (s : List Char) :
    (execImport start (c :: s)).isSome
      = (start && importsHere (c :: s) || (execImport (isLineTerminator c) s).isSome) := by
  rw [execImport]
  cases start && importsHere (c :: s) <;> simp

theorem execImport_isSome_of_not (h : importsHere s = false) (start : Bool) :
    (execImport start s).isSome = (execImport false s).isSome := by
  cases s with
  | nil => rfl
  | cons c s =>
    rw [execImport_cons_isSome, execImport_cons_isSome, h, Bool.and_false, Bool.and_false]

/-- Blanks at the end of a line hide nothing and show nothing. -/
theorem execImport_blank (hblank : ∀ c ∈ w, isBlank c = true) (hs : ∀ c ∈ s.head?, c = '\n') :
    (execImport false (w ++ s)).isSome = (execImport false s).isSome := by
  induction w with
  | nil => rfl
  | cons c w ih =>
    obtain ⟨-, hw⟩ := List.forall_mem_cons.mp hblank
    have hnone : importsHere (w ++ s) = false :=
      importsHere_of_blank (fun d hd => hw d ((restOfLine_append w hs).subset hd))
    rw [List.cons_append, execImport_cons_isSome, Bool.false_and, Bool.false_or,
      execImport_isSome_of_not hnone, ih hw]

/-- **The gate makes no difference between texts that differ in such blanks alone.** -/
theorem ButBlanks.execImport_isSome (h : ButBlanks s t) (start : Bool) :
    (execImport start s).isSome = (execImport start t).isSome := by
  induction h generalizing start with
  | nil => rfl
  | @cons c s t hst ih =>
    have hline : importsHere (c :: s) = importsHere (c :: t) := by
      rw [← importsHere_restOfLine, ← importsHere_restOfLine (c :: t),
        (ButBlanks.cons c hst).restOfLine_eq]
    rw [execImport_cons_isSome, execImport_cons_isSome, hline, ih]
  | @blank w s t hends hblank hs hst ih =>
    cases w with
    | nil => exact ih start
    | cons c w =>
      have hnone : ∀ r, restOfLine r = [] → importsHere r = false :=
        fun r hr => importsHere_of_blank (by simp [hr])
      have hs' : importsHere s = false :=
        hnone s (List.prefix_nil.mp (restOfLine_append [] hs))
      have hw : importsHere (c :: w ++ s) = false :=
        hnone _ (by rw [List.cons_append, restOfLine_cons, if_pos (hends c rfl)])
      rw [execImport_isSome_of_not hw, execImport_blank hblank hs, ← ih start,
        execImport_isSome_of_not hs' start]

theorem head?_splitOnP (s : List Char) :
    (s.splitOnP isLineTerminator).head? = some (restOfLine s) := by
  induction s with
  | nil => rfl
  | cons c s ih =>
    rw [List.splitOnP_cons_eq_if_modifyHead, restOfLine_cons]
    split
    · rfl
    · rw [List.head?_modifyHead, ih]
      rfl

/-- **The expression finds a line that begins with either word**, if there is one: this one,
where a line begins, or a later one. -/
theorem execImport_isSome_iff (start : Bool) (s : List Char) :
    (execImport start s).isSome = true ↔ (start = true ∧ importsHere s = true)
      ∨ ∃ line ∈ (s.splitOnP isLineTerminator).tail, importsHere line = true := by
  induction s generalizing start with
  | nil => simp [execImport, importsHere]
  | cons c s ih =>
    rw [execImport_cons_isSome, Bool.or_eq_true, ih, Bool.and_eq_true,
      List.splitOnP_cons_eq_if_modifyHead]
    obtain ⟨lines, hlines⟩ := List.head?_eq_some_iff.mp (head?_splitOnP s)
    by_cases hc : isLineTerminator c = true
    · rw [if_pos hc, hlines]
      simp [hc, importsHere_restOfLine]
    · rw [if_neg hc, hlines]
      simp [hc]

end Lines

/-! ## What the gate finds -/

/-- The texts of which some line begins with either word can be told. -/
instance (s : List Char) : Decidable (ImportsOrExports s) :=
  inferInstanceAs (Decidable (∃ line ∈ s.splitOnP isLineTerminator, importsHere line = true))

theorem importsOrExports_iff (s : List Char) :
    ImportsOrExports s ↔ (execImport true s).isSome = true := by
  obtain ⟨lines, hlines⟩ := List.head?_eq_some_iff.mp (head?_splitOnP s)
  rw [execImport_isSome_iff, ImportsOrExports, hlines]
  simp [importsHere_restOfLine]

/-- **The gate against imports** finds a statement if and only if some line begins with
`import` or `export` when comments are taken out by the language's rule, of a source whose
comments stand apart. -/
theorem import_gate {source : String} (h : CommentsApart source.toList) :
    (findForbiddenImport source).isSome = true
      ↔ ImportsOrExports (stripComments source.toList) := by
  rw [importsOrExports_iff, h.butBlanks.execImport_isSome, findForbiddenImport]
  simp

/-- A source with a comment of either kind, and with an import. -/
theorem import_gate_commented :
    (findForbiddenImport "/* a */ b // c\nimport d").isSome = true
      ↔ ImportsOrExports (stripComments "/* a */ b // c\nimport d".toList) := by
  have himport : CommentsApart ("\nimport d".toList ++ []) := .append (by decide) .nil
  have hline : CommentsApart ('/' :: '/' :: (" c".toList ++ ([] ++ ("\nimport d".toList ++ [])))) :=
    .line (by simp [isLineTerminator]) (by simp) (by simp) (by simp) himport
  have hblock : CommentsApart ('/' :: '*' :: (" a ".toList ++ '*' :: '/' :: (" b ".toList
      ++ '/' :: '/' :: (" c".toList ++ ([] ++ ("\nimport d".toList ++ [])))))) :=
    .block (by decide) (by decide) (.append (by decide) hline)
  exact import_gate hblock

/-- **The gate does not find what the language's rule leaves, and finds what it does not
leave**: a `//` in a block comment hides the import behind the comment; it shows an import
that the comment is about; and behind a line that ends in a carriage return the next line
is hidden. -/
theorem not_import_gate :
    (findForbiddenImport "/* // */ import a" = none
      ∧ ImportsOrExports (stripComments "/* // */ import a".toList))
    ∧ (findForbiddenImport "/*\nimport a // */" = some "import a"
      ∧ ¬ImportsOrExports (stripComments "/*\nimport a // */".toList))
    ∧ findForbiddenImport "// a\rimport b" = none
      ∧ ImportsOrExports (stripComments "// a\rimport b".toList) := by
  decide +kernel

end ImportGate
