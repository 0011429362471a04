import Actjs.NatRounding
import Actjs.SemVer
import Actjs.SplitOrder
import Actjs.StableSort
import Mathlib.Data.List.Sort
import Mathlib.Data.List.TakeDrop
import Mathlib.Data.List.TakeWhile
import Mathlib.Tactic.Common

/-!
# The latest version of a class

The code generator takes of each class the latest version that is not deprecated.
`semverCompare`, by which it sorts them, splits a version at `.`, `+` and `-`, and compares
what is between: by `Number` where that has a number for both, and as texts otherwise. A
segment that a version does not have is `0`.

So it has the rules of precedence where the numbers of the versions are not the same doubles,
and for the identifiers of two prereleases, as far as these are numbers, or are none to
`Number` either; the hyphens in them make no difference (`SplitOrder.splitOn_lt_iff`). But a
prerelease is never before its release, as nothing is before `0`; a build is not passed over;
and a number is compared with an identifier as a text. `Ranked` says of two versions that it
is one of the rules that they are compared by. `picksLatest_of_ranked` is that the latest is
picked then; and of versions without builds and without identifiers that are numbers to
`Number` alone, only then.
-/

/-! ## `Number` -/

namespace JsNumber

def digitValue (base : ℕ) (c : Char) : Option ℕ :=
  (if c.isDigit = true then some (c.toNat - '0'.toNat)
    else if c.isLower = true then some (c.toNat - 'a'.toNat + 10)
    else if c.isUpper = true then some (c.toNat - 'A'.toNat + 10)
    else none).filter (· < base)

def ofDigits (base : ℕ) : Text → Option ℕ
  | [] => none
  | ds => ds.foldlM (fun n c => (digitValue base c).map (base * n + ·)) 0

/-- A decimal numeral, which may have an exponent. -/
def decimal (x : Text) : Option ℕ :=
  match x.span Char.isDigit with
  | (ds, []) => ofDigits 10 ds
  | (ds, e :: es) =>
    if e = 'e' ∨ e = 'E' then
      (ofDigits 10 ds).bind fun n => (ofDigits 10 es).map fun k => n * 10 ^ k
    else none

def radix (c : Char) : Option ℕ :=
  if c = 'x' ∨ c = 'X' then some 16
  else if c = 'o' ∨ c = 'O' then some 8
  else if c = 'b' ∨ c = 'B' then some 2
  else none

/-- What a numeral is for. -/
def literal : Text → Option ℕ
  | [] => some 0
  | '0' :: c :: ds =>
    match radix c with
    | some base => ofDigits base ds
    | none => decimal ('0' :: c :: ds)
  | x => decimal x

/-- **`Number(x)`, where it is finite**, of a text of letters and digits. -/
def number (x : Text) : Option ℕ := (literal x).bind toDouble

theorem digitValue_of_isDigit {c : Char} (h : c.isDigit = true) :
    digitValue 10 c = some (c.toNat - '0'.toNat) := by
  have hlt : c.toNat - '0'.toNat < 10 := by
    have hle : c.toNat ≤ 57 := (Char.isDigit_iff_toNat.mp h).2
    show c.toNat - 48 < 10
    omega
  rw [digitValue, if_pos h, Option.filter_some, decide_eq_true hlt, if_pos rfl]

theorem ofDigits_of_isDigit {x : Text} (hx : x ≠ []) (h : ∀ c ∈ x, c.isDigit = true) :
    ofDigits 10 x = some (Nat.ofDigitChars 10 x 0) := by
  have hfold : ∀ (x : Text) (n : ℕ), (∀ c ∈ x, c.isDigit = true) →
      x.foldlM (fun n c => (digitValue 10 c).map (10 * n + ·)) n
        = some (Nat.ofDigitChars 10 x n) := by
    intro x
    induction x with
    | nil => exact fun n _ => by rw [Nat.ofDigitChars_nil]; rfl
    | cons c x ih =>
      intro n h
      rw [List.foldlM_cons, digitValue_of_isDigit (h c List.mem_cons_self),
        Nat.ofDigitChars_cons]
      exact ih _ fun d hd => h d (List.mem_cons_of_mem _ hd)
  cases x with
  | nil => exact absurd rfl hx
  | cons c x => exact hfold (c :: x) 0 h

theorem decimal_of_isDigit {x : Text} (hx : x ≠ []) (h : ∀ c ∈ x, c.isDigit = true) :
    decimal x = some (Nat.ofDigitChars 10 x 0) := by
  unfold decimal
  rw [List.span_eq_takeWhile_dropWhile, List.takeWhile_eq_self_iff.mpr h,
    List.dropWhile_eq_nil_iff.mpr h]
  exact ofDigits_of_isDigit hx h

/-- A numeral of digits alone is decimal. -/
theorem literal_of_isDigit {x : Text} (hx : x ≠ []) (h : ∀ c ∈ x, c.isDigit = true) :
    literal x = some (Nat.ofDigitChars 10 x 0) := by
  unfold literal
  split
  · exact absurd rfl hx
  · next c ds =>
    have hradix : radix c = none := by
      have hc := h c (List.mem_cons_of_mem _ List.mem_cons_self)
      have hne : ∀ d : Char, d.isDigit = false → c ≠ d := fun d hd hcd =>
        absurd (hc.symm.trans (hcd ▸ hd)) (by simp)
      simp [radix, hne]
    rw [hradix]
    exact decimal_of_isDigit hx h
  · exact decimal_of_isDigit hx h

@[simp]
theorem number_toDigits (n : ℕ) : number (Nat.toDigits 10 n) = toDouble n := by
  have hdigits : ∀ c ∈ Nat.toDigits 10 n, c.isDigit = true := fun _ =>
    Nat.isDigit_of_mem_toDigits (by omega) (by omega)
  rw [number, literal_of_isDigit Nat.toDigits_ne_nil hdigits, Nat.ofDigitChars_ten_toDigits,
    Option.bind_some]

theorem number_nil : number [] = some 0 := by decide

theorem number_zero : number ['0'] = some 0 := by decide

end JsNumber

open JsNumber (number)

/-! ## The code -/

namespace ClassVersions

/-- `VersionRecord`, of which only this is read. -/
structure VersionRecord where
  version : String
  deprecatedAt : Option ℕ

def isSeparator (c : Char) : Bool := c == '.' || c == '+' || c == '-'

/-- `a.split(/[.+-]/)`. -/
def segments (a : String) : List Text := a.toList.splitOnP isSeparator

/-- What the body of the loop returns, if it does. Of a difference of two doubles only the
sign is read. -/
def compareSegment (x y : Text) : Option ℤ :=
  match number x, number y with
  | some xi, some yi => if xi ≠ yi then some (xi - yi) else none
  | _, _ => if x ≠ y then some (if x < y then -1 else 1) else none

/-- The loop. -/
def compareSegments (segA segB : List Text) : ℤ :=
  ((List.range (max segA.length segB.length)).findSome? fun i =>
    compareSegment (segA.getD i ['0']) (segB.getD i ['0'])).getD 0

def semverCompare (a b : String) : ℤ := compareSegments (segments a) (segments b)

/-- `pickLatestNonDeprecated`. The sort is stable. -/
def pickLatestNonDeprecated (versions : List VersionRecord) : Option String :=
  let live := versions.filter (·.deprecatedAt.isNone)
  (live.insertionSort fun a b => semverCompare b.version a.version ≤ 0).head?.map (·.version)

/-! ## The loop -/

/-- **A segment is before another**, as `semverCompare` has it. -/
def Below (x y : Text) : Prop :=
  match number x, number y with
  | some xi, some yi => xi < yi
  | _, _ => x < y

/-- **Two segments that are not told apart.** -/
def Alike (x y : Text) : Prop := x = y ∨ ∃ k, number x = some k ∧ number y = some k

theorem compareSegment_of_alike {x y : Text} (h : Alike x y) : compareSegment x y = none := by
  unfold compareSegment
  obtain rfl | ⟨k, hx, hy⟩ := h
  · cases number x with
    | none => exact if_neg (not_not_intro rfl)
    | some k => exact if_neg (not_not_intro rfl)
  · rw [hx, hy]
    exact if_neg (not_not_intro rfl)

theorem compareSegment_of_below {x y : Text} (h : Below x y) :
    ∃ d, compareSegment x y = some d ∧ d < 0 := by
  unfold Below at h
  unfold compareSegment
  split at h
  · next xi yi _ _ => exact ⟨xi - yi, if_pos (by omega), by omega⟩
  · exact ⟨-1, by rw [if_pos (ne_of_lt h), if_pos h], by omega⟩

/-- Segments are alike, or one is before the other. -/
theorem alike_or_below (x y : Text) : Alike x y ∨ Below x y ∨ Below y x := by
  unfold Alike Below
  cases hx : number x with
  | none =>
    obtain hlt | heq | hgt := lt_trichotomy x y
    · exact .inr (.inl hlt)
    · exact .inl (.inl heq)
    · refine .inr (.inr ?_)
      cases number y with
      | none => exact hgt
      | some _ => exact hgt
  | some xi =>
    cases hy : number y with
    | none =>
      obtain hlt | heq | hgt := lt_trichotomy x y
      · exact .inr (.inl hlt)
      · exact .inl (.inl heq)
      · exact .inr (.inr hgt)
    | some yi =>
      obtain hlt | rfl | hgt := lt_trichotomy xi yi
      · exact .inr (.inl hlt)
      · exact .inl (.inr ⟨xi, rfl, rfl⟩)
      · exact .inr (.inr hgt)

theorem getD_zero (xs : List Text) : xs.getD 0 ['0'] = xs.headD ['0'] := by
  cases xs with
  | nil => rfl
  | cons x xs => rfl

theorem getD_succ (xs : List Text) (i : ℕ) : xs.getD (i + 1) ['0'] = xs.tail.getD i ['0'] := by
  cases xs with
  | nil => rfl
  | cons x xs => rfl

/-- **An iteration**, also where there is nothing left: a segment that is missing is `0`. -/
theorem compareSegments_eq (xs ys : List Text) : compareSegments xs ys
    = (compareSegment (xs.headD ['0']) (ys.headD ['0'])).getD
      (compareSegments xs.tail ys.tail) := by
  by_cases hmax : max xs.length ys.length = 0
  · rw [List.length_eq_zero_iff.mp (by omega : xs.length = 0),
      List.length_eq_zero_iff.mp (by omega : ys.length = 0)]
    decide
  · have htail : max xs.length ys.length = max xs.tail.length ys.tail.length + 1 := by
      rw [List.length_tail, List.length_tail]
      omega
    unfold compareSegments
    rw [htail, List.range_succ_eq_map, List.findSome?_cons, List.findSome?_map, getD_zero,
      getD_zero]
    cases compareSegment (xs.headD ['0']) (ys.headD ['0']) with
    | some d => rfl
    | none =>
      show (List.findSome? _ _).getD 0 = (List.findSome? _ _).getD 0
      refine congrArg (Option.getD · 0) (congrArg (List.findSome? · _) ?_)
      funext i
      show compareSegment (xs.getD (i + 1) _) (ys.getD (i + 1) _) = _
      rw [getD_succ, getD_succ]

theorem compareSegments_cons {x y : Text} (h : Alike x y) (xs ys : List Text) :
    compareSegments (x :: xs) (y :: ys) = compareSegments xs ys := by
  rw [compareSegments_eq]
  show (compareSegment x y).getD (compareSegments xs ys) = _
  rw [compareSegment_of_alike h]
  rfl

theorem compareSegments_cons_lt {x y : Text} (h : Below x y) (xs ys : List Text) :
    compareSegments (x :: xs) (y :: ys) < 0 := by
  obtain ⟨d, hd, hneg⟩ := compareSegment_of_below h
  rw [compareSegments_eq]
  show (compareSegment x y).getD (compareSegments xs ys) < 0
  rw [hd]
  exact hneg

theorem compareSegments_append (zs xs ys : List Text) :
    compareSegments (zs ++ xs) (zs ++ ys) = compareSegments xs ys := by
  induction zs with
  | nil => rfl
  | cons z zs ih => exact (compareSegments_cons (.inl rfl) _ _).trans ih

theorem compareSegment_swap (x y : Text) :
    compareSegment y x = (compareSegment x y).map fun d => -d := by
  have htexts : (if y ≠ x then some (if y < x then (-1 : ℤ) else 1) else none)
      = (if x ≠ y then some (if x < y then -1 else 1) else none).map fun d => -d := by
    obtain hlt | rfl | hgt := lt_trichotomy x y
    · rw [if_pos hlt.ne, if_pos hlt.ne', if_pos hlt, if_neg hlt.not_gt]
      rfl
    · rw [if_neg (not_not_intro rfl)]
      rfl
    · rw [if_pos hgt.ne, if_pos hgt.ne', if_pos hgt, if_neg hgt.not_gt]
      rfl
  unfold compareSegment
  cases number x with
  | none =>
    cases number y with
    | none => exact htexts
    | some yi => exact htexts
  | some xi =>
    cases number y with
    | none => exact htexts
    | some yi =>
      by_cases h : xi = yi
      · rw [h]
        show ite _ _ _ = Option.map _ (ite _ _ _)
        rw [if_neg (not_not_intro rfl)]
        rfl
      · show ite _ _ _ = Option.map _ (ite _ _ _)
        rw [if_pos h, if_pos (Ne.symm h), Option.map_some, Int.neg_sub]

/-- **The other way round it has the other sign.** -/
theorem compareSegments_swap (xs ys : List Text) :
    compareSegments ys xs = -compareSegments xs ys := by
  unfold compareSegments
  have hswap : (fun i => compareSegment (ys.getD i ['0']) (xs.getD i ['0']))
      = (Option.map fun d => -d) ∘ fun i =>
        compareSegment (xs.getD i ['0']) (ys.getD i ['0']) := by
    funext i
    exact compareSegment_swap _ _
  rw [hswap, max_comm, ← List.map_findSome?]
  cases List.findSome? _ _ with
  | none => rfl
  | some d => rfl

/-! ### A missing segment -/

theorem compareSegments_nil_cons (y : Text) (ys : List Text) : compareSegments [] (y :: ys)
    = (compareSegment ['0'] y).getD (compareSegments [] ys) := compareSegments_eq [] (y :: ys)

/-- What is not for zero is after `0`. -/
theorem below_zero {y : Text} (hletters : ∀ c ∈ y, '0' ≤ c) (h : number y ≠ some 0) :
    Below ['0'] y := by
  unfold Below
  rw [JsNumber.number_zero]
  cases hy : number y with
  | some k => exact Nat.pos_of_ne_zero fun hk => h (by rw [hy, hk])
  | none =>
    show ['0'] < y
    cases y with
    | nil => exact absurd (JsNumber.number_nil.symm.trans hy) (by simp)
    | cons c y =>
      obtain hlt | heq := lt_or_eq_of_le (hletters c List.mem_cons_self)
      · exact .rel hlt
      · cases y with
        | nil => exact absurd (JsNumber.number_zero.symm.trans (heq ▸ hy)) (by simp)
        | cons d y =>
          rw [← heq]
          exact .cons .nil

theorem compareSegments_nil_of_zero {ys : List Text} (h : ∀ y ∈ ys, number y = some 0) :
    compareSegments [] ys = 0 := by
  induction ys with
  | nil => rfl
  | cons y ys ih =>
    have halike : Alike ['0'] y := .inr ⟨0, JsNumber.number_zero, h y List.mem_cons_self⟩
    rw [compareSegments_nil_cons, compareSegment_of_alike halike]
    exact ih fun z hz => h z (List.mem_cons_of_mem _ hz)

theorem compareSegments_nil_lt {ys : List Text} (hletters : ∀ y ∈ ys, ∀ c ∈ y, '0' ≤ c)
    (h : ∃ y ∈ ys, number y ≠ some 0) : compareSegments [] ys < 0 := by
  induction ys with
  | nil => exact absurd h (by simp)
  | cons y ys ih =>
    rw [compareSegments_nil_cons]
    by_cases hy : number y = some 0
    · rw [compareSegment_of_alike (.inr ⟨0, JsNumber.number_zero, hy⟩)]
      refine ih (fun z hz => hletters z (List.mem_cons_of_mem _ hz)) ?_
      obtain ⟨z, hz, hne⟩ := h
      obtain rfl | hz := List.mem_cons.mp hz
      · exact absurd hy hne
      · exact ⟨z, hz, hne⟩
    · obtain ⟨d, hd, hneg⟩ := compareSegment_of_below
        (below_zero (hletters y List.mem_cons_self) hy)
      rw [hd]
      exact hneg

theorem compareSegments_nil_le {ys : List Text} (hletters : ∀ y ∈ ys, ∀ c ∈ y, '0' ≤ c) :
    compareSegments [] ys ≤ 0 := by
  by_cases h : ∃ y ∈ ys, number y ≠ some 0
  · exact (compareSegments_nil_lt hletters h).le
  · have hzero : ∀ y ∈ ys, number y = some 0 := fun y hy => by
      by_contra hne
      exact h ⟨y, hy, hne⟩
    exact (compareSegments_nil_of_zero hzero).le

/-! ## Segments -/

/-- The segments of an identifier. -/
def pieces (x : Text) : List Text := x.splitOn '-'

/-- The segments of a version that are after its numbers. -/
def tailSegments (pre : List PreIdent) (build : List Ident) : List Text :=
  (pre.map PreIdent.text).flatMap pieces ++ (build.map Ident.text).flatMap pieces

theorem splitOnP_isSeparator {x : Text} (h : ∀ c ∈ x, isIdentLetter c = true) :
    x.splitOnP isSeparator = pieces x := by
  induction x with
  | nil => rfl
  | cons c x ih =>
    have hc := h c List.mem_cons_self
    have hsep : isSeparator c = (c == '-') := by
      have hdot : c ≠ '.' := fun hdot => absurd (hdot ▸ hc) (by decide)
      have hplus : c ≠ '+' := fun hplus => absurd (hplus ▸ hc) (by decide)
      rw [isSeparator, beq_eq_false_iff_ne.mpr hdot, beq_eq_false_iff_ne.mpr hplus,
        Bool.false_or, Bool.false_or]
    unfold pieces at ih ⊢
    rw [List.splitOn_eq_splitOnP] at ih ⊢
    rw [List.splitOnP_cons_eq_if_modifyHead, List.splitOnP_cons_eq_if_modifyHead, hsep,
      ih fun c hc => h c (List.mem_cons_of_mem _ hc)]

/-- A text that goes on with parts. -/
theorem splitOnP_parts (x : Text) {parts : List (Char × Text)}
    (hsep : ∀ part ∈ parts, isSeparator part.1 = true) :
    (x ++ parts.flatMap fun part => part.1 :: part.2).splitOnP isSeparator
      = x.splitOnP isSeparator ++ parts.flatMap fun part => part.2.splitOnP isSeparator := by
  induction parts generalizing x with
  | nil => simp
  | cons part parts ih =>
    have hrest := ih part.2 fun q hq => hsep q (List.mem_cons_of_mem _ hq)
    rw [List.flatMap_cons, List.flatMap_cons, List.cons_append,
      List.splitOnP_append_cons _ _ (hsep part List.mem_cons_self), hrest]

theorem pieces_of_forall_ne {x : Text} (h : ∀ c ∈ x, c ≠ '-') : pieces x = [x] := by
  rw [pieces, List.splitOn_eq_splitOnP]
  exact List.splitOnP_eq_singleton fun c hc => beq_eq_false_iff_ne.mpr (h c hc)

theorem pieces_toDigits (n : ℕ) : pieces (Nat.toDigits 10 n) = [Nat.toDigits 10 n] := by
  refine pieces_of_forall_ne fun c hc hdash => ?_
  have hdigit := Nat.isDigit_of_mem_toDigits (by omega) (by omega) (hdash ▸ hc)
  exact absurd hdigit (by decide)

theorem splitOnP_toDigits (n : ℕ) :
    (Nat.toDigits 10 n).splitOnP isSeparator = [Nat.toDigits 10 n] :=
  (splitOnP_isSeparator fun _ => PreIdent.isIdentLetter_of_mem_toDigits).trans (pieces_toDigits n)

theorem splitOnP_marked (mark : Char) {xs : List Text}
    (h : ∀ x ∈ xs, ∀ c ∈ x, isIdentLetter c = true) :
    (SemVer.marked mark xs).flatMap (fun part => part.2.splitOnP isSeparator)
      = xs.flatMap pieces := by
  have hflat : (SemVer.marked mark xs).flatMap (fun part => part.2.splitOnP isSeparator)
      = xs.flatMap fun x => x.splitOnP isSeparator := by
    cases xs with
    | nil => rfl
    | cons x xs =>
      show x.splitOnP isSeparator ++ (xs.map _).flatMap _ = _
      rw [List.flatMap_map, List.flatMap_cons]
  rw [hflat]
  exact List.flatMap_congr fun x hx => splitOnP_isSeparator (h x hx)

theorem isSeparator_parts (v : SemVer) : ∀ part ∈ v.parts, isSeparator part.1 = true := by
  have hmarked : ∀ (mark : Char) (xs : List Text), isSeparator mark = true →
      ∀ part ∈ SemVer.marked mark xs, isSeparator part.1 = true := by
    intro mark xs hmark part hpart
    cases xs with
    | nil => exact absurd hpart (by simp [SemVer.marked])
    | cons x xs =>
      obtain rfl | hpart := List.mem_cons.mp hpart
      · exact hmark
      · obtain ⟨y, _, rfl⟩ := List.mem_map.mp hpart
        rfl
  intro part hpart
  rw [SemVer.parts, List.mem_append, List.mem_append] at hpart
  obtain (hpart | hpart) | hpart := hpart
  · obtain rfl | hpart := List.mem_cons.mp hpart
    · rfl
    · rw [List.mem_singleton.mp hpart]
      rfl
  · exact hmarked '-' _ rfl part hpart
  · exact hmarked '+' _ rfl part hpart

/-- **The segments of a version.** -/
theorem segments_render (v : SemVer) : segments v.render
    = Nat.toDigits 10 v.major :: Nat.toDigits 10 v.minor :: Nat.toDigits 10 v.patch
      :: tailSegments v.pre v.build := by
  have hpre : ∀ x ∈ v.pre.map PreIdent.text, ∀ c ∈ x, isIdentLetter c = true := fun x hx => by
    obtain ⟨p, -, rfl⟩ := List.mem_map.mp hx
    exact p.letters
  have hbuild : ∀ x ∈ v.build.map Ident.text, ∀ c ∈ x, isIdentLetter c = true := fun x hx => by
    obtain ⟨id, -, rfl⟩ := List.mem_map.mp hx
    exact id.letters
  unfold segments SemVer.render
  rw [String.toList_ofList, splitOnP_parts _ (isSeparator_parts v), splitOnP_toDigits,
    SemVer.parts, List.flatMap_append, List.flatMap_append, splitOnP_marked _ hpre,
    splitOnP_marked _ hbuild]
  rw [List.flatMap_cons, List.flatMap_cons, List.flatMap_nil, splitOnP_toDigits,
    splitOnP_toDigits, List.append_assoc]
  rfl

theorem zero_le_of_mem_tailSegments {pre : List PreIdent} {build : List Ident} {y : Text}
    (hy : y ∈ tailSegments pre build) : ∀ c ∈ y, '0' ≤ c := by
  have hletters : ∀ x : Text, (∀ c ∈ x, isIdentLetter c = true) → y ∈ pieces x →
      ∀ c ∈ y, '0' ≤ c := by
    intro x hx hyx c hc
    obtain ⟨hmem, hne⟩ := SplitOrder.mem_of_mem_splitOn hyx hc
    exact zero_le_of_isIdentLetter (hx c hmem) hne
  obtain hy | hy := List.mem_append.mp hy
  · obtain ⟨x, hx, hyx⟩ := List.mem_flatMap.mp hy
    obtain ⟨p, -, rfl⟩ := List.mem_map.mp hx
    exact hletters _ p.letters hyx
  · obtain ⟨x, hx, hyx⟩ := List.mem_flatMap.mp hy
    obtain ⟨id, -, rfl⟩ := List.mem_map.mp hx
    exact hletters _ id.letters hyx

theorem tailSegments_cons (p : PreIdent) (ps : List PreIdent) (build : List Ident) :
    tailSegments (p :: ps) build = pieces p.text ++ tailSegments ps build :=
  List.append_assoc _ _ _

/-! ## What is decided as it should be

The pairs of versions on which the code follows the rules of precedence, by
where they first differ. -/

/-- **Two numbers that are other doubles**, the lower first. -/
def RanksNumber (n m : ℕ) : Prop :=
  n < m ∧ ∃ i j, toDouble n = some i ∧ toDouble m = some j ∧ i ≠ j

/-- **The first segments that differ are both there**, and if both are for numbers, these are
in the order of the texts. -/
def RanksPieces : List Text → List Text → Prop
  | x :: xs, y :: ys =>
    (x = y ∧ RanksPieces xs ys)
      ∨ (x < y ∧ ∀ i j, number x = some i → number y = some j → i < j)
  | _, _ => False

/-- **Two identifiers that are ranked by the rule that there is for them.** -/
def RanksIdent : PreIdent → PreIdent → Prop
  | .numeric n, .numeric m => RanksNumber n m
  | .numeric n, .alphanumeric t _ => ∃ y ys, pieces t.text = y :: ys ∧ Below (Nat.toDigits 10 n) y
  | .alphanumeric _ _, .numeric _ => False
  | .alphanumeric s _, .alphanumeric t _ => RanksPieces (pieces s.text) (pieces t.text)

/-- **An identifier that goes on after another** at a hyphen. With what comes then it is not
for zeros alone. -/
def GoesOn (p q : PreIdent) (zs : List Text) : Prop :=
  ∃ ys, ys ≠ [] ∧ pieces q.text = pieces p.text ++ ys ∧ ∃ y ∈ ys ++ zs, number y ≠ some 0

/-- **Two prereleases** whose first identifiers that differ are ranked by their rule. Where one
goes on after the other, that one has no build, and what comes is not for zeros alone. -/
def RanksPre (build build' : List Ident) : List PreIdent → List PreIdent → Prop
  | [], [] => False
  | [], q :: qs => build = [] ∧ ∃ y ∈ tailSegments (q :: qs) build', number y ≠ some 0
  | _ :: _, [] => False
  | p :: ps, q :: qs => (p = q ∧ RanksPre build build' ps qs) ∨ RanksIdent p q
      ∨ (build = [] ∧ ps = [] ∧ GoesOn p q (tailSegments qs build'))

/-- **Two versions, the lower first, that are ranked by the rules of precedence**: by their
numbers, or as two prereleases. -/
def Ranks (v w : SemVer) : Prop :=
  RanksNumber v.major w.major ∨ v.major = w.major ∧
    (RanksNumber v.minor w.minor ∨ v.minor = w.minor ∧
      (RanksNumber v.patch w.patch ∨ v.patch = w.patch ∧
        v.pre ≠ [] ∧ w.pre ≠ [] ∧ RanksPre v.build w.build v.pre w.pre))

/-- **Two versions of one rank** with builds that are not told apart. -/
def RanksSame (v w : SemVer) : Prop :=
  v.major = w.major ∧ v.minor = w.minor ∧ v.patch = w.patch ∧ v.pre = w.pre ∧
    ∀ i, Alike (((v.build.map Ident.text).flatMap pieces).getD i ['0'])
      (((w.build.map Ident.text).flatMap pieces).getD i ['0'])

section Ranks

variable {v w : SemVer}

theorem below_of_ranksNumber {n m : ℕ} (h : RanksNumber n m) :
    Below (Nat.toDigits 10 n) (Nat.toDigits 10 m) := by
  obtain ⟨hlt, i, j, hi, hj, hne⟩ := h
  unfold Below
  rw [JsNumber.number_toDigits, JsNumber.number_toDigits, hi, hj]
  exact (toDouble_lt hi hj hne).mpr hlt

theorem compareSegments_of_ranksPieces {xs ys : List Text} (h : RanksPieces xs ys)
    (xs' ys' : List Text) : compareSegments (xs ++ xs') (ys ++ ys') < 0 ∧ xs < ys := by
  induction xs generalizing ys with
  | nil => exact absurd h (by simp [RanksPieces])
  | cons x xs ih =>
    cases ys with
    | nil => exact absurd h (by simp [RanksPieces])
    | cons y ys =>
      obtain ⟨rfl, h⟩ | ⟨hlt, hnumbers⟩ := h
      · obtain ⟨hneg, hrest⟩ := ih h
        exact ⟨(compareSegments_cons (.inl rfl) _ _).trans_lt hneg, .cons hrest⟩
      · have hbelow : Below x y := by
          unfold Below
          split
          · next i j hi hj => exact hnumbers i j hi hj
          · exact hlt
        exact ⟨compareSegments_cons_lt hbelow _ _, .rel hlt⟩

theorem above_of_letters {x : Text} (h : ∀ c ∈ x, isIdentLetter c = true) :
    SplitOrder.Above '-' x := by
  intro c hc
  by_cases hdash : c = '-'
  · exact hdash.ge
  · exact le_trans (by decide) (zero_le_of_isIdentLetter (h c hc) hdash)

theorem ranksIdent_lt {p q : PreIdent} (h : RanksIdent p q) (xs ys : List Text) :
    compareSegments (pieces p.text ++ xs) (pieces q.text ++ ys) < 0 ∧ p.key < q.key := by
  cases p with
  | numeric n =>
    show compareSegments (pieces (Nat.toDigits 10 n) ++ xs) _ < 0 ∧ _
    rw [pieces_toDigits]
    cases q with
    | numeric m =>
      show compareSegments _ (pieces (Nat.toDigits 10 m) ++ ys) < 0 ∧ _
      rw [pieces_toDigits]
      exact ⟨compareSegments_cons_lt (below_of_ranksNumber h) _ _,
        PreIdent.key_numeric_lt.mpr h.1⟩
    | alphanumeric t ht =>
      obtain ⟨y, ys', hy, hbelow⟩ := h
      show compareSegments _ (pieces t.text ++ ys) < 0 ∧ _
      rw [hy]
      exact ⟨compareSegments_cons_lt hbelow _ _, PreIdent.key_numeric_lt_alphanumeric⟩
  | alphanumeric s hs =>
    cases q with
    | numeric m => exact absurd h id
    | alphanumeric t ht =>
      obtain ⟨hneg, hlt⟩ := compareSegments_of_ranksPieces h xs ys
      have htext : s.text < t.text := (SplitOrder.splitOn_lt_iff (above_of_letters s.letters)
        (above_of_letters t.letters)).mp hlt
      exact ⟨hneg, PreIdent.key_alphanumeric_lt.mpr htext⟩

theorem key_lt_of_goesOn {p q : PreIdent} {zs : List Text} (h : GoesOn p q zs) :
    p.key < q.key := by
  obtain ⟨ys, hys, hpieces, -⟩ := h
  cases q with
  | numeric m =>
    obtain ⟨x, xs, hx⟩ := SplitOrder.exists_splitOn '-' p.text
    have hlong : pieces (Nat.toDigits 10 m) = (x :: xs) ++ ys := hpieces.trans (by rw [pieces, hx])
    rw [pieces_toDigits] at hlong
    have hlength := congrArg List.length hlong
    rw [List.length_singleton, List.length_append, List.length_cons] at hlength
    exact absurd (List.length_eq_zero_iff.mp (by omega)) hys
  | alphanumeric t ht =>
    cases p with
    | numeric n => exact PreIdent.key_numeric_lt_alphanumeric
    | alphanumeric s hs =>
      refine PreIdent.key_alphanumeric_lt.mpr ((SplitOrder.splitOn_lt_iff
        (above_of_letters s.letters) (above_of_letters t.letters)).mp ?_)
      have hnil : ([] : List Text) < ys := by
        cases ys with
        | nil => exact absurd rfl hys
        | cons y ys => exact .nil
      have hlt : pieces s.text ++ [] < pieces s.text ++ ys := List.append_left_lt hnil
      rw [List.append_nil] at hlt
      exact lt_of_lt_of_eq hlt hpieces.symm

theorem compareSegments_of_goesOn {build : List Ident} {p q : PreIdent} {qs : List PreIdent}
    (h : GoesOn p q (tailSegments qs build)) :
    compareSegments (tailSegments [p] []) (tailSegments (q :: qs) build) < 0 := by
  obtain ⟨ys, -, hpieces, hnonzero⟩ := h
  have htail : tailSegments (q :: qs) build = pieces p.text ++ (ys ++ tailSegments qs build) := by
    rw [tailSegments_cons, hpieces, List.append_assoc]
  have hletters : ∀ y ∈ ys ++ tailSegments qs build, ∀ c ∈ y, '0' ≤ c := fun y hy =>
    zero_le_of_mem_tailSegments (htail ▸ List.mem_append_right _ hy)
  rw [htail, tailSegments_cons, compareSegments_append]
  exact compareSegments_nil_lt hletters hnonzero

theorem ranksPre_lt {build build' : List Ident} {ps qs : List PreIdent}
    (h : RanksPre build build' ps qs) :
    compareSegments (tailSegments ps build) (tailSegments qs build') < 0
      ∧ ps.map PreIdent.key < qs.map PreIdent.key := by
  induction ps generalizing qs with
  | nil =>
    cases qs with
    | nil => exact absurd h id
    | cons q qs =>
      obtain ⟨rfl, hnonzero⟩ := h
      exact ⟨compareSegments_nil_lt (fun _ => zero_le_of_mem_tailSegments) hnonzero, .nil⟩
  | cons p ps ih =>
    cases qs with
    | nil => exact absurd h id
    | cons q qs =>
      rw [tailSegments_cons, tailSegments_cons]
      obtain ⟨rfl, h⟩ | h | ⟨rfl, rfl, h⟩ := h
      · obtain ⟨hneg, hlt⟩ := ih h
        rw [compareSegments_append]
        exact ⟨hneg, .cons hlt⟩
      · obtain ⟨hneg, hlt⟩ := ranksIdent_lt h (tailSegments ps build) (tailSegments qs build')
        exact ⟨hneg, .rel hlt⟩
      · rw [← tailSegments_cons, ← tailSegments_cons]
        exact ⟨compareSegments_of_goesOn h, .rel (key_lt_of_goesOn h)⟩

theorem semverCompare_render (v w : SemVer) : semverCompare v.render w.render
    = compareSegments
      (Nat.toDigits 10 v.major :: Nat.toDigits 10 v.minor :: Nat.toDigits 10 v.patch
        :: tailSegments v.pre v.build)
      (Nat.toDigits 10 w.major :: Nat.toDigits 10 w.minor :: Nat.toDigits 10 w.patch
        :: tailSegments w.pre w.build) := by
  rw [semverCompare, segments_render, segments_render]

/-- **Versions that are ranked by the rules are in the order of precedence, and
`semverCompare` has them so.** -/
theorem ranks_lt (h : Ranks v w) : v.key < w.key ∧ semverCompare v.render w.render < 0 := by
  rw [SemVer.key_lt_iff, semverCompare_render]
  obtain h | ⟨hmajor, h⟩ := h
  · exact ⟨.inl h.1, compareSegments_cons_lt (below_of_ranksNumber h) _ _⟩
  rw [hmajor, compareSegments_cons (.inl rfl)]
  obtain h | ⟨hminor, h⟩ := h
  · exact ⟨.inr ⟨rfl, .inl h.1⟩, compareSegments_cons_lt (below_of_ranksNumber h) _ _⟩
  rw [hminor, compareSegments_cons (.inl rfl)]
  obtain h | ⟨hpatch, hv, hw, h⟩ := h
  · exact ⟨.inr ⟨rfl, .inr ⟨rfl, .inl h.1⟩⟩,
      compareSegments_cons_lt (below_of_ranksNumber h) _ _⟩
  rw [hpatch, compareSegments_cons (.inl rfl)]
  obtain ⟨hneg, hlt⟩ := ranksPre_lt h
  exact ⟨.inr ⟨rfl, .inr ⟨rfl, .inr ⟨rfl, hv, .inr hlt⟩⟩⟩, hneg⟩

theorem ranksSame_eq (h : RanksSame v w) :
    v.key = w.key ∧ semverCompare v.render w.render = 0 := by
  obtain ⟨hmajor, hminor, hpatch, hpre, hbuild⟩ := h
  rw [SemVer.key_eq_iff, semverCompare_render, hmajor, hminor, hpatch, hpre,
    compareSegments_cons (.inl rfl), compareSegments_cons (.inl rfl),
    compareSegments_cons (.inl rfl), tailSegments, tailSegments, compareSegments_append]
  refine ⟨⟨rfl, rfl, rfl, rfl⟩, ?_⟩
  unfold compareSegments
  rw [List.findSome?_eq_none_iff.mpr fun i _ => compareSegment_of_alike (hbuild i)]
  rfl

end Ranks

/-! ## The latest

What the claim asks of the comparison and of the pick, over versions in any
order. -/

/-- **A version that is published.** -/
structure Published where
  version : SemVer
  deprecatedAt : Option ℕ

namespace Published

/-- What the server has of it. -/
def record (v : Published) : VersionRecord := ⟨v.version.render, v.deprecatedAt⟩

/-- `semverCompare`, of the texts of two versions. -/
def compare (v w : Published) : ℤ := semverCompare v.version.render w.version.render

end Published

/-- **The latest version is picked**: `semverCompare` is a total preorder on the versions and
agrees with precedence, and in whatever order they come, what is picked is not deprecated and
none that is not deprecated is after it; there is no pick when all are deprecated. -/
structure PicksLatest (vs : List Published) : Prop where
  agrees : ∀ v ∈ vs, ∀ w ∈ vs, (v.compare w < 0 ↔ v.version.key < w.version.key)
    ∧ (v.compare w = 0 ↔ v.version.key = w.version.key)
  total : ∀ v ∈ vs, ∀ w ∈ vs, v.compare w ≤ 0 ∨ w.compare v ≤ 0
  trans : ∀ u ∈ vs, ∀ v ∈ vs, ∀ w ∈ vs, u.compare v ≤ 0 → v.compare w ≤ 0 → u.compare w ≤ 0
  none_iff : ∀ ws : List Published, ws.Perm vs →
    (pickLatestNonDeprecated (ws.map Published.record) = none
      ↔ ∀ w ∈ ws, w.deprecatedAt ≠ none)
  latest : ∀ ws : List Published, ws.Perm vs → ∀ version,
    pickLatestNonDeprecated (ws.map Published.record) = some version →
      ∃ v ∈ ws, v.deprecatedAt = none ∧ v.version.render = version
        ∧ ∀ w ∈ ws, w.deprecatedAt = none → w.version.key ≤ v.version.key

/-- A number below which all are doubles, an identifier without hyphens that `Number` has no
number for. -/
def PlainIdent : PreIdent → Prop
  | .numeric n => n < 2 ^ 53
  | .alphanumeric id _ => (∀ c ∈ id.text, c ≠ '-') ∧ number id.text = none

/-- **A plain version** has no build, and numbers and identifiers that are plain. -/
structure Plain (v : SemVer) : Prop where
  major : v.major < 2 ^ 53
  minor : v.minor < 2 ^ 53
  patch : v.patch < 2 ^ 53
  pre : ∀ p ∈ v.pre, PlainIdent p
  build : v.build = []

/-- One of the two is ranked before the other by the rules, or they are of one rank. -/
def Ranked (v w : SemVer) : Prop := RanksSame v w ∨ Ranks v w ∨ Ranks w v

section Latest

variable {vs : List Published}

theorem compare_swap (v w : Published) : w.compare v = -v.compare w := by
  unfold Published.compare semverCompare
  exact compareSegments_swap _ _

theorem agrees_of_ranked {v w : Published} (h : Ranked v.version w.version) :
    (v.compare w < 0 ↔ v.version.key < w.version.key)
      ∧ (v.compare w = 0 ↔ v.version.key = w.version.key) := by
  obtain h | h | h := h
  · obtain ⟨hkey, hzero⟩ := ranksSame_eq h
    have hzero : v.compare w = 0 := hzero
    rw [hkey, hzero]
    exact ⟨by simp, by simp⟩
  · obtain ⟨hkey, hneg⟩ := ranks_lt h
    have hneg : v.compare w < 0 := hneg
    exact ⟨iff_of_true hneg hkey, iff_of_false hneg.ne hkey.ne⟩
  · obtain ⟨hkey, hneg⟩ := ranks_lt h
    have hpos := compare_swap w v
    have hneg : w.compare v < 0 := hneg
    exact ⟨iff_of_false (by omega) hkey.not_gt, iff_of_false (by omega) hkey.ne'⟩

/-- What is not deprecated. -/
def live (vs : List Published) : List Published := vs.filter (·.deprecatedAt.isNone)

theorem mem_live {v : Published} : v ∈ live vs ↔ v ∈ vs ∧ v.deprecatedAt = none := by
  rw [live, List.mem_filter, Option.isNone_iff_eq_none]

theorem pickLatestNonDeprecated_map (vs : List Published) :
    pickLatestNonDeprecated (vs.map Published.record)
      = ((live vs).insertionSort fun v w => w.compare v ≤ 0).head?.map (·.version.render) := by
  have hsort := List.map_insertionSort (fun v w : Published => w.compare v ≤ 0)
    (fun a b : VersionRecord => semverCompare b.version a.version ≤ 0) Published.record (live vs)
    fun _ _ _ _ => by unfold Published.compare; exact Iff.rfl
  unfold pickLatestNonDeprecated
  rw [List.filter_map]
  show (((live vs).map Published.record).insertionSort _).head?.map _ = _
  rw [← hsort, List.head?_map, Option.map_map]
  rfl

/-- **What agrees with precedence picks the latest.** -/
theorem picksLatest_of_agrees (h : ∀ v ∈ vs, ∀ w ∈ vs,
    (v.compare w < 0 ↔ v.version.key < w.version.key)
      ∧ (v.compare w = 0 ↔ v.version.key = w.version.key)) : PicksLatest vs := by
  have hle : ∀ v ∈ vs, ∀ w ∈ vs, v.compare w ≤ 0 ↔ v.version.key ≤ w.version.key := by
    intro v hv w hw
    obtain ⟨hlt, heq⟩ := h v hv w hw
    rw [le_iff_lt_or_eq, le_iff_lt_or_eq, hlt, heq]
  refine ⟨h, ?_, ?_, ?_, ?_⟩
  · intro v hv w hw
    rw [hle v hv w hw, hle w hw v hv]
    exact le_total _ _
  · intro u hu v hv w hw huv hvw
    rw [hle u hu v hv] at huv
    rw [hle v hv w hw] at hvw
    rw [hle u hu w hw]
    exact huv.trans hvw
  · intro ws hws
    rw [pickLatestNonDeprecated_map, Option.map_eq_none_iff, List.head?_eq_none_iff,
      ← List.length_eq_zero_iff, List.length_insertionSort, List.length_eq_zero_iff, live,
      List.filter_eq_nil_iff]
    refine forall₂_congr fun w _ => ?_
    rw [Option.isNone_iff_eq_none]
  · intro ws hws version hpick
    have hlive : ∀ v ∈ live ws, v ∈ vs := fun v hv => hws.mem_iff.mp (mem_live.mp hv).1
    have hsort : (live ws).insertionSort (fun v w => w.compare v ≤ 0)
        = (live ws).insertionSort fun v w => w.version.key ≤ v.version.key := by
      have hmap := List.map_insertionSort (fun v w : Published => w.compare v ≤ 0)
        (fun v w : Published => w.version.key ≤ v.version.key) id (live ws)
        fun v hv w hw => hle w (hlive w hw) v (hlive v hv)
      rwa [List.map_id, List.map_id] at hmap
    rw [pickLatestNonDeprecated_map, hsort, Option.map_eq_some_iff] at hpick
    obtain ⟨v, hv, rfl⟩ := hpick
    have hmem : v ∈ live ws := (List.mem_insertionSort _).mp (List.mem_of_head? hv)
    refine ⟨v, (mem_live.mp hmem).1, (mem_live.mp hmem).2, rfl, fun w hw hwlive => ?_⟩
    have htotal : Std.Total fun v w : Published => w.version.key ≤ v.version.key :=
      ⟨fun _ _ => le_total _ _⟩
    have htrans : IsTrans Published fun v w => w.version.key ≤ v.version.key :=
      ⟨fun _ _ _ huv hvw => hvw.trans huv⟩
    exact StableSort.rel_of_head?_insertionSort
      (r := fun v w : Published => w.version.key ≤ v.version.key) hv (mem_live.mpr ⟨hw, hwlive⟩)

/-! ### Plain versions -/

theorem ranksNumber_of_lt {n m : ℕ} (h : n < m) (hm : m < 2 ^ 53) : RanksNumber n m :=
  ⟨h, n, m, toDouble_of_lt (h.trans hm), toDouble_of_lt hm, h.ne⟩

/-- Of two plain identifiers that are not ranked by their rule the first one is a number, and
`semverCompare` has it after the other. -/
theorem ranksIdent_of_plain {p q : PreIdent} (hp : PlainIdent p) (hq : PlainIdent q)
    (hlt : p.key < q.key) {xs ys : List Text}
    (hneg : compareSegments (pieces p.text ++ xs) (pieces q.text ++ ys) < 0) :
    RanksIdent p q := by
  cases p with
  | numeric n =>
    cases q with
    | numeric m => exact ranksNumber_of_lt (PreIdent.key_numeric_lt.mp hlt) hq
    | alphanumeric t ht =>
      have hpieces := pieces_of_forall_ne hq.1
      refine ⟨t.text, [], hpieces, ?_⟩
      obtain halike | hbelow | hbelow := alike_or_below (Nat.toDigits 10 n) t.text
      · obtain heq | ⟨k, -, hk⟩ := halike
        · obtain ⟨c, hc, hdigit⟩ := ht
          rw [← heq] at hc
          rw [Nat.isDigit_of_mem_toDigits (by omega) (by omega) hc] at hdigit
          exact absurd hdigit (by simp)
        · rw [hq.2] at hk
          exact absurd hk (by simp)
      · exact hbelow
      · have hback := compareSegments_cons_lt hbelow ys xs
        have hneg : compareSegments (pieces (Nat.toDigits 10 n) ++ xs) (pieces t.text ++ ys) < 0 :=
          hneg
        rw [hpieces, pieces_toDigits, compareSegments_swap] at hneg
        simp only [List.singleton_append] at hneg
        omega
  | alphanumeric s hs =>
    cases q with
    | numeric m => exact absurd PreIdent.key_numeric_lt_alphanumeric hlt.not_gt
    | alphanumeric t ht =>
      show RanksPieces (pieces s.text) (pieces t.text)
      rw [pieces_of_forall_ne hp.1, pieces_of_forall_ne hq.1]
      refine .inr ⟨PreIdent.key_alphanumeric_lt.mp hlt, fun i j hi _ => ?_⟩
      rw [hp.2] at hi
      exact absurd hi (by simp)

theorem ranksPre_of_plain {ps qs : List PreIdent} (hps : ∀ p ∈ ps, PlainIdent p)
    (hqs : ∀ q ∈ qs, PlainIdent q) (hlt : ps.map PreIdent.key < qs.map PreIdent.key)
    (hneg : compareSegments (tailSegments ps []) (tailSegments qs []) < 0) :
    RanksPre [] [] ps qs := by
  induction ps generalizing qs with
  | nil =>
    cases qs with
    | nil => exact absurd hlt (lt_irrefl _)
    | cons q qs =>
      refine ⟨rfl, ?_⟩
      by_contra hzero
      have hall : ∀ y ∈ tailSegments (q :: qs) [], number y = some 0 := fun y hy => by
        by_contra hne
        exact hzero ⟨y, hy, hne⟩
      exact absurd (compareSegments_nil_of_zero hall) hneg.ne
  | cons p ps ih =>
    cases qs with
    | nil => exact absurd hlt (by simp)
    | cons q qs =>
      rw [tailSegments_cons, tailSegments_cons] at hneg
      obtain hkey | ⟨hkey, hrest⟩ := List.cons_lt_cons_iff.mp hlt
      · exact .inr (.inl (ranksIdent_of_plain (hps p List.mem_cons_self)
          (hqs q List.mem_cons_self) hkey hneg))
      · obtain rfl := PreIdent.key_injective hkey
        rw [compareSegments_append] at hneg
        exact .inl ⟨rfl, ih (fun r hr => hps r (List.mem_cons_of_mem _ hr))
          (fun r hr => hqs r (List.mem_cons_of_mem _ hr)) hrest hneg⟩

theorem ranks_of_plain {v w : SemVer} (hv : Plain v) (hw : Plain w) (hlt : v.key < w.key)
    (hneg : semverCompare v.render w.render < 0) : Ranks v w := by
  rw [semverCompare_render] at hneg
  obtain hlt | ⟨hmajor, hlt⟩ := SemVer.key_lt_iff.mp hlt
  · exact .inl (ranksNumber_of_lt hlt hw.major)
  rw [hmajor, compareSegments_cons (.inl rfl)] at hneg
  obtain hlt | ⟨hminor, hlt⟩ := hlt
  · exact .inr ⟨hmajor, .inl (ranksNumber_of_lt hlt hw.minor)⟩
  rw [hminor, compareSegments_cons (.inl rfl)] at hneg
  obtain hlt | ⟨hpatch, hpre, hlt⟩ := hlt
  · exact .inr ⟨hmajor, .inr ⟨hminor, .inl (ranksNumber_of_lt hlt hw.patch)⟩⟩
  rw [hpatch, compareSegments_cons (.inl rfl), hv.build, hw.build] at hneg
  refine .inr ⟨hmajor, .inr ⟨hminor, .inr ⟨hpatch, hpre, ?_⟩⟩⟩
  obtain hrelease | hlt := hlt
  · -- nothing is before a release
    rw [hrelease, compareSegments_swap] at hneg
    have hnil : compareSegments [] (tailSegments v.pre []) ≤ 0 :=
      compareSegments_nil_le fun _ => zero_le_of_mem_tailSegments
    have hneg : -compareSegments [] (tailSegments v.pre []) < 0 := hneg
    omega
  · refine ⟨fun hw => ?_, ?_⟩
    · rw [hw] at hlt
      exact absurd hlt (by simp)
    · rw [hv.build, hw.build]
      exact ranksPre_of_plain hv.pre hw.pre hlt hneg

theorem ranked_of_plain {v w : Published} (hv : Plain v.version) (hw : Plain w.version)
    (h : PicksLatest vs) (hvmem : v ∈ vs) (hwmem : w ∈ vs) : Ranked v.version w.version := by
  obtain hlt | heq | hgt := lt_trichotomy v.version.key w.version.key
  · exact .inr (.inl (ranks_of_plain hv hw hlt ((h.agrees v hvmem w hwmem).1.mpr hlt)))
  · obtain ⟨hmajor, hminor, hpatch, hpre⟩ := SemVer.key_eq_iff.mp heq
    refine .inl ⟨hmajor, hminor, hpatch, hpre, fun i => ?_⟩
    rw [hv.build, hw.build]
    exact .inl rfl
  · exact .inr (.inr (ranks_of_plain hw hv hgt ((h.agrees w hwmem v hvmem).1.mpr hgt)))

/-- **The latest version is picked from versions that are all ranked by the rules of
precedence**; and from plain versions from no others. -/
theorem picksLatest_of_ranked (vs : List Published) :
    ((∀ v ∈ vs, ∀ w ∈ vs, Ranked v.version w.version) → PicksLatest vs)
      ∧ ((∀ v ∈ vs, Plain v.version) →
        (PicksLatest vs ↔ ∀ v ∈ vs, ∀ w ∈ vs, Ranked v.version w.version)) := by
  have henough : (∀ v ∈ vs, ∀ w ∈ vs, Ranked v.version w.version) → PicksLatest vs :=
    fun h => picksLatest_of_agrees fun v hv w hw => agrees_of_ranked (h v hv w hw)
  exact ⟨henough, fun hplain => ⟨fun h v hv w hw =>
    ranked_of_plain (hplain v hv) (hplain w hw) h hv hw, henough⟩⟩

end Latest

/-! ### A release and its prerelease -/

/-- The identifier `alpha`. -/
def alpha : PreIdent :=
  .alphanumeric ⟨['a', 'l', 'p', 'h', 'a'], List.cons_ne_nil _ _, List.all_eq_true.mp rfl⟩
    ⟨'a', List.mem_cons_self, rfl⟩

/-- `1.0.0-alpha` and `1.0.0`. -/
def alphaAndRelease : List Published :=
  [⟨⟨1, 0, 0, [alpha], []⟩, none⟩, ⟨⟨1, 0, 0, [], []⟩, none⟩]

/-- `1.0.0-alpha`, `1.0.0-alpha.1` and `1.1.0`. -/
def alphasAndNext : List Published :=
  [⟨⟨1, 0, 0, [alpha], []⟩, none⟩, ⟨⟨1, 0, 0, [alpha, .numeric 1], []⟩, none⟩,
    ⟨⟨1, 1, 0, [], []⟩, none⟩]

theorem picksLatest_of_ranked_alphasAndNext : PicksLatest alphasAndNext := by
  have hsame : ∀ v : SemVer, Ranked v v := fun v => .inl ⟨rfl, rfl, rfl, rfl, fun _ => .inl rfl⟩
  have hone : RanksNumber 0 1 := ranksNumber_of_lt (by decide) (by decide)
  have halphas : Ranks ⟨1, 0, 0, [alpha], []⟩ ⟨1, 0, 0, [alpha, .numeric 1], []⟩ :=
    .inr ⟨rfl, .inr ⟨rfl, .inr ⟨rfl, by simp, by simp,
      .inl ⟨rfl, rfl, ['1'], by decide, by decide⟩⟩⟩⟩
  have hnext : ∀ pre, Ranks ⟨1, 0, 0, pre, []⟩ ⟨1, 1, 0, [], []⟩ := fun _ => .inr ⟨rfl, .inl hone⟩
  refine (picksLatest_of_ranked alphasAndNext).1 fun v hv w hw => ?_
  simp only [alphasAndNext, List.mem_cons, List.not_mem_nil, or_false] at hv hw
  obtain rfl | rfl | rfl := hv
  · obtain rfl | rfl | rfl := hw
    · exact hsame _
    · exact .inr (.inl halphas)
    · exact .inr (.inl (hnext _))
  · obtain rfl | rfl | rfl := hw
    · exact .inr (.inr halphas)
    · exact hsame _
    · exact .inr (.inl (hnext _))
  · obtain rfl | rfl | rfl := hw
    · exact .inr (.inr (hnext _))
    · exact .inr (.inr (hnext _))
    · exact hsame _

/-- The prerelease is picked. -/
theorem not_picksLatest : ¬∀ vs : List Published, PicksLatest vs := by
  intro h
  have hkey : (⟨1, 0, 0, [alpha], []⟩ : SemVer).key < (⟨1, 0, 0, [], []⟩ : SemVer).key :=
    SemVer.key_lt_iff.mpr (by simp)
  have hagrees := (h alphaAndRelease).agrees _ List.mem_cons_self _
    (List.mem_cons_of_mem _ List.mem_cons_self)
  have hneg := hagrees.1.mpr hkey
  exact absurd hneg (by decide)

end ClassVersions
