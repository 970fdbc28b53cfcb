import HeaderReflection.FilePath
import HeaderReflection.Proofs.Text.Pieces
import Mathlib.Data.List.TakeWhile

/-!
# Normal forms of paths

A path in normal form is read back from its text, and paths below one another are recognized by their texts.

## Main definitions

- `FilePath.Normal`: the paths that normal forms are.
- `FilePath.Plain`: a component that names something.
- `FilePath.below`, `FilePath.IsAbove`: paths below a path, and the order that this gives.
- `FilePath.lastPart`: the last component of a path, as it is written.

## Main results

- `normal_parse`, `parse_render`: reading gives normal forms, and normal forms are read back.
- `joinPath_below`: joining plain components to a path leads below it.
- `parse_parentDir`: the directory of a path is the path without its last component.
- `beginsWith_render_iff`: a path is below another one when its text continues that of the other with a slash.
- `relativePath?_below`, `joinPath_render`: relative paths lead down and back.
- `joinPath_relativePath?`: a relative path that is joined to its base leads to the target.
- `lastPart_cleanPath`: the last component stays what it is if it is a name.
-/

namespace HeaderReflection.FilePath

/-! ## §1 Stacks of components -/

theorem push_of_nothing {rooted : Bool} {stack : List Text} {part : Text} (h : part = [] ∨ part = here) :
    push rooted stack part = stack := by
  unfold push
  rw [if_pos h]

theorem push_of_name {rooted : Bool} {stack : List Text} {part : Text} (h : ¬ (part = [] ∨ part = here))
    (hup : part ≠ up) : push rooted stack part = part :: stack := by
  unfold push
  rw [if_neg h, if_neg hup]

theorem push_up_cons (rooted : Bool) (last : Text) (rest : List Text) :
    push rooted (last :: rest) up = if last = up then up :: last :: rest else rest := by
  have hname : ¬ (up = [] ∨ up = here) := by decide
  unfold push
  rw [if_neg hname, if_pos rfl]

/-- Components that are put on a stack one after the other, none of which changes what is there. -/
def Pushes (rooted : Bool) : List Text → List Text → Prop
  | _, [] => True
  | stack, part :: parts => push rooted stack part = part :: stack ∧ Pushes rooted (part :: stack) parts

theorem foldl_push {rooted : Bool} {stack parts : List Text} (h : Pushes rooted stack parts) :
    parts.foldl (push rooted) stack = parts.reverse ++ stack := by
  induction parts generalizing stack with
  | nil => rfl
  | cons part parts ih =>
    obtain ⟨hpart, hrest⟩ := h
    rw [List.foldl_cons, hpart, ih hrest]
    simp

theorem pushes_append {rooted : Bool} {stack before after : List Text} :
    Pushes rooted stack (before ++ after) ↔
      Pushes rooted stack before ∧ Pushes rooted (before.reverse ++ stack) after := by
  induction before generalizing stack with
  | nil => simp [Pushes]
  | cons part before ih =>
    rw [List.cons_append, Pushes, Pushes, ih, and_assoc, List.reverse_cons, List.append_assoc]
    rfl

theorem ne_nil_of_push {rooted : Bool} {stack : List Text} {part : Text} (h : push rooted stack part = part :: stack) :
    part ≠ [] := by
  rintro rfl
  have hsame : push rooted stack [] = stack := by simp [push]
  rw [hsame] at h
  exact absurd (congrArg List.length h) (by simp)

theorem ne_nil_of_mem_pushes {rooted : Bool} {stack parts : List Text} (h : Pushes rooted stack parts) :
    ∀ part ∈ parts, part ≠ [] := by
  induction parts generalizing stack with
  | nil => simp
  | cons part parts ih =>
    intro other hother
    rcases List.mem_cons.mp hother with rfl | hother
    · exact ne_nil_of_push h.1
    · exact ih h.2 other hother

/-- A stack that has been built from nothing stays so when a component is put on it. -/
theorem pushes_push {rooted : Bool} {stack : List Text} (h : Pushes rooted [] stack.reverse) (part : Text) :
    Pushes rooted [] (push rooted stack part).reverse := by
  have hsnoc : ∀ {stack : List Text} {part : Text}, Pushes rooted [] stack.reverse →
      push rooted stack part = part :: stack → Pushes rooted [] (part :: stack).reverse := by
    intro stack part hstack hpart
    rw [List.reverse_cons, pushes_append, List.reverse_reverse, List.append_nil]
    exact ⟨hstack, hpart, trivial⟩
  by_cases hnothing : part = [] ∨ part = here
  · rw [push_of_nothing hnothing]
    exact h
  · by_cases hup : part = up
    · -- going up takes the last component away, unless that goes up as well or there is none
      subst hup
      cases stack with
      | nil =>
        cases rooted with
        | true => exact trivial
        | false => exact ⟨rfl, trivial⟩
      | cons last rest =>
        by_cases hlast : last = up
        · have hpush : push rooted (last :: rest) up = up :: last :: rest := by rw [push_up_cons, if_pos hlast]
          rw [hpush]
          exact hsnoc h hpush
        · rw [push_up_cons, if_neg hlast]
          rw [List.reverse_cons, pushes_append] at h
          exact h.1
    · rw [push_of_name hnothing hup]
      exact hsnoc h (push_of_name hnothing hup)

/-- What is on a stack after a step: the component, one that goes up, or what was there. -/
theorem mem_of_mem_push {rooted : Bool} {stack : List Text} {part other : Text} (h : other ∈ push rooted stack part) :
    other = part ∨ other = up ∨ other ∈ stack := by
  unfold push at h
  split at h
  · exact Or.inr (Or.inr h)
  · split at h
    · split at h
      · split at h
        · cases h
        · exact Or.inr (Or.inl (List.mem_singleton.mp h))
      · split at h
        · rcases List.mem_cons.mp h with h | h
          · exact Or.inr (Or.inl h)
          · exact Or.inr (Or.inr h)
        · exact Or.inr (Or.inr (List.mem_cons_of_mem _ h))
    · rcases List.mem_cons.mp h with h | h
      · exact Or.inl h
      · exact Or.inr (Or.inr h)

/-! ## §2 Normal forms -/

/-- A path in normal form: no component changes those before it, and none has a slash in it. -/
structure Normal (p : FilePath) : Prop where
  pushes : Pushes p.rooted [] p.parts
  noSlash : ∀ part ∈ p.parts, slash ∉ part

/-- **Reading gives normal forms.** -/
theorem normal_parse (text : Text) : Normal (parse text) := by
  -- both parts of the normal form hold of the stack after every component
  have hfold : ∀ (parts stack : List Text), (∀ part ∈ parts, slash ∉ part) →
      Pushes (Text.beginsWith [slash] text) [] stack.reverse → (∀ part ∈ stack, slash ∉ part) →
      Pushes (Text.beginsWith [slash] text) []
        (parts.foldl (push (Text.beginsWith [slash] text)) stack).reverse ∧
      ∀ part ∈ parts.foldl (push (Text.beginsWith [slash] text)) stack, slash ∉ part := by
    intro parts
    induction parts with
    | nil => intro stack _ hstack hslash; exact ⟨hstack, hslash⟩
    | cons part parts ih =>
      intro stack hparts hstack hslash
      rw [List.foldl_cons]
      refine ih _ (fun other h => hparts other (List.mem_cons_of_mem _ h)) (pushes_push hstack part) ?_
      intro other hother
      rcases mem_of_mem_push hother with rfl | rfl | hmem
      · exact hparts other List.mem_cons_self
      · decide
      · exact hslash other hmem
  obtain ⟨hpushes, hslash⟩ := hfold (Text.splitOn slash text) [] (fun _ h => Text.not_mem_of_mem_splitOn h) trivial
    (by simp)
  exact ⟨hpushes, fun part hpart => hslash part (List.mem_reverse.mp hpart)⟩

theorem render_ne_nil {p : FilePath} (h : p.Normal) : p.render ≠ [] := by
  unfold render
  dsimp only
  split
  · simp
  · split
    · decide
    · next hne =>
      cases hparts : p.parts with
      | nil => exact absurd hparts hne
      | cons part parts =>
        have hpart : part ≠ [] := ne_nil_of_mem_pushes h.pushes part (by simp [hparts])
        cases parts with
        | nil => simpa using hpart
        | cons next parts => simp [Text.joinWith, hpart]

/-- The components of the text of a path; a rooted path has an empty one in front. -/
theorem splitOn_render {p : FilePath} (h : p.Normal) (hne : p.parts ≠ []) :
    Text.splitOn slash p.render = (if p.rooted then [[]] else []) ++ p.parts := by
  have hjoined := Text.splitOn_joinWith hne h.noSlash
  unfold render
  dsimp only
  rw [if_neg hne]
  split
  · rw [Text.splitOn_cons_sep, hjoined]
    rfl
  · rw [hjoined]
    rfl

theorem beginsWith_slash_render {p : FilePath} (h : p.Normal) : Text.beginsWith [slash] p.render = p.rooted := by
  unfold render
  dsimp only
  cases hrooted : p.rooted with
  | true => simp [Text.beginsWith, Text.stripPrefix?]
  | false =>
    rw [if_neg Bool.false_ne_true]
    split
    · decide
    · next hne =>
      cases hparts : p.parts with
      | nil => exact absurd hparts hne
      | cons part parts =>
        have hpart : part ≠ [] := ne_nil_of_mem_pushes h.pushes part (by simp [hparts])
        have hslash : slash ∉ part := h.noSlash part (by simp [hparts])
        cases part with
        | nil => exact absurd rfl hpart
        | cons b part =>
          have hb : slash ≠ b := fun heq => hslash (by simp [heq])
          cases parts <;> simp [Text.joinWith, Text.beginsWith, Text.stripPrefix?, hb]

/-- **Normal forms are read back.** -/
theorem parse_render {p : FilePath} (h : p.Normal) : parse p.render = p := by
  have hparts : ((Text.splitOn slash p.render).foldl (push p.rooted) []).reverse = p.parts := by
    by_cases hne : p.parts = []
    · cases p with
      | mk rooted parts =>
        subst hne
        cases rooted <;> decide
    · rw [splitOn_render h hne, List.foldl_append]
      have hfront : (if p.rooted then [[]] else []).foldl (push p.rooted) [] = ([] : List Text) := by
        split <;> simp [push]
      rw [hfront, foldl_push h.pushes]
      simp
  unfold parse
  rw [beginsWith_slash_render h]
  dsimp only
  rw [hparts]

theorem render_injective {p q : FilePath} (hp : p.Normal) (hq : q.Normal) (h : p.render = q.render) : p = q := by
  rw [← parse_render hp, ← parse_render hq, h]

theorem cleanPath_render {p : FilePath} (h : p.Normal) : cleanPath p.render = p.render := by
  rw [cleanPath, parse_render h]

/-! ## §3 Paths below a path -/

/-- A component that names something in a directory. -/
structure Plain (part : Text) : Prop where
  ne_nil : part ≠ []
  ne_here : part ≠ here
  ne_up : part ≠ up
  noSlash : slash ∉ part

/-- The path that some components lead to from a path. -/
def below (p : FilePath) (parts : List Text) : FilePath := { p with parts := p.parts ++ parts }

@[simp] theorem rooted_below (p : FilePath) (parts : List Text) : (p.below parts).rooted = p.rooted := rfl

@[simp] theorem parts_below (p : FilePath) (parts : List Text) : (p.below parts).parts = p.parts ++ parts := rfl

@[simp] theorem below_nil (p : FilePath) : p.below [] = p := by simp [below]

@[simp] theorem below_below (p : FilePath) (parts more : List Text) :
    (p.below parts).below more = p.below (parts ++ more) := by simp [below]

theorem below_inj {p : FilePath} {parts parts' : List Text} : p.below parts = p.below parts' ↔ parts = parts' := by
  simp [below]

theorem push_plain {part : Text} (h : Plain part) (rooted : Bool) (stack : List Text) :
    push rooted stack part = part :: stack :=
  push_of_name (not_or.mpr ⟨h.ne_nil, h.ne_here⟩) h.ne_up

theorem pushes_plain {parts : List Text} (h : ∀ part ∈ parts, Plain part) (rooted : Bool) (stack : List Text) :
    Pushes rooted stack parts := by
  induction parts generalizing stack with
  | nil => trivial
  | cons part parts ih =>
    exact ⟨push_plain (h part List.mem_cons_self) rooted stack, ih (fun q hq => h q (List.mem_cons_of_mem _ hq)) _⟩

theorem normal_below {p : FilePath} (hp : p.Normal) {parts : List Text} (h : ∀ part ∈ parts, Plain part) :
    (p.below parts).Normal where
  pushes := pushes_append.mpr ⟨hp.pushes, pushes_plain h _ _⟩
  noSlash := by
    intro part hpart
    rcases List.mem_append.mp hpart with hpart | hpart
    · exact hp.noSlash part hpart
    · exact (h part hpart).noSlash

/-- A text with a slash in it is read from left to right. -/
theorem parse_append_slash {text : Text} (h : text ≠ []) (rest : Text) :
    parse (text ++ slash :: rest) =
      { rooted := (parse text).rooted
        parts := ((Text.splitOn slash rest).foldl (push (parse text).rooted) (parse text).parts.reverse).reverse } := by
  have hrooted : Text.beginsWith [slash] (text ++ slash :: rest) = Text.beginsWith [slash] text := by
    cases text with
    | nil => exact absurd rfl h
    | cons b text =>
      by_cases hb : slash = b <;> simp [Text.beginsWith, Text.stripPrefix?, hb]
  unfold parse
  dsimp only
  rw [hrooted, Text.splitOn_append_sep, List.foldl_append, List.reverse_reverse]

theorem splitOn_joinWith_plain {parts : List Text} (hne : parts ≠ []) (h : ∀ part ∈ parts, Plain part) :
    Text.splitOn slash (Text.joinWith [slash] parts) = parts :=
  Text.splitOn_joinWith hne fun part hpart => (h part hpart).noSlash

/-- A normal form that is continued with plain components. -/
theorem parse_render_append {p : FilePath} (hp : p.Normal) {parts : List Text} (hne : parts ≠ [])
    (h : ∀ part ∈ parts, Plain part) :
    parse (p.render ++ slash :: Text.joinWith [slash] parts) = p.below parts := by
  rw [parse_append_slash (render_ne_nil hp), parse_render hp, splitOn_joinWith_plain hne h,
    foldl_push (pushes_plain h _ _)]
  simp [below]

/-- **Joining plain components leads below a path.** -/
theorem joinPath_below {p : FilePath} (hp : p.Normal) {parts : List Text} (h : ∀ part ∈ parts, Plain part) :
    joinPath (p.render :: parts) = (p.below parts).render := by
  have hkeep : (p.render :: parts).dropWhile (· = []) = p.render :: parts := by
    rw [List.dropWhile_cons_of_neg]
    simpa using render_ne_nil hp
  unfold joinPath
  rw [hkeep]
  dsimp only
  by_cases hne : parts = []
  · subst hne
    rw [Text.joinWith_singleton, cleanPath_render hp, below_nil]
  · rw [Text.joinWith_cons _ _ hne, List.append_assoc, List.singleton_append, cleanPath, parse_render_append hp hne h]

/-- A relative path that leads down is joined like its components. -/
theorem joinPath_render {p : FilePath} (hp : p.Normal) {parts : List Text} (hne : parts ≠ [])
    (h : ∀ part ∈ parts, Plain part) :
    joinPath [p.render, ({ rooted := false, parts } : FilePath).render] = (p.below parts).render := by
  have hrender : ({ rooted := false, parts } : FilePath).render = Text.joinWith [slash] parts := by
    simp [render, hne]
  have hjoin : joinPath [p.render, Text.joinWith [slash] parts] = joinPath (p.render :: parts) := by
    have hp' := render_ne_nil hp
    simp only [joinPath, List.dropWhile_cons, hp', decide_false, Bool.false_eq_true, if_false]
    rw [Text.joinWith_cons _ _ hne]
    rfl
  rw [hrender, hjoin, joinPath_below hp h]

/-- **The directory of a path** is the path without its last component. -/
theorem parse_parentDir {p : FilePath} {last : Text} (h : (p.below [last]).Normal) :
    parse (parentDir (p.below [last]).render) = p := by
  have hp : p.Normal :=
    ⟨(pushes_append.mp h.pushes).1, fun part hpart => h.noSlash part (List.mem_append_left _ hpart)⟩
  have hslash : slash ∉ last := h.noSlash last (by simp)
  -- the directory is found by cutting the text off behind its last slash, and the last component has none
  have hskip : ∀ b ∈ last.reverse, decide (b ≠ slash) = true := by
    intro b hb
    simp only [ne_eq, decide_not, Bool.not_eq_true', decide_eq_false_iff_not]
    rintro rfl
    exact hslash (List.mem_reverse.mp hb)
  have hcut : ∀ before : Text,
      ((before ++ slash :: last).reverse.dropWhile (· ≠ slash)).reverse = before ++ [slash] := by
    intro before
    rw [List.reverse_append, List.reverse_cons, List.append_assoc, List.dropWhile_append_of_pos hskip]
    simp
  have hclean : ∀ text : Text, parse (cleanPath text) = parse text := fun text => parse_render (normal_parse text)
  unfold parentDir
  rw [hclean]
  cases hparts : p.parts with
  | nil =>
    -- the root and the current directory have texts of their own
    cases p with
    | mk rooted parts =>
      dsimp only at hparts
      subst hparts
      cases rooted with
      | true =>
        have hrender : (below { rooted := true, parts := [] } [last]).render = [] ++ slash :: last := by
          simp [render, below]
        rw [hrender, hcut]
        decide
      | false =>
        have hrender : (below { rooted := false, parts := [] } [last]).render = last := by
          simp [render, below]
        rw [hrender, List.dropWhile_eq_nil_iff.mpr hskip]
        decide
  | cons first rest =>
    have hne : p.parts ≠ [] := by simp [hparts]
    have hrender : (p.below [last]).render = p.render ++ slash :: last := by
      cases hrooted : p.rooted <;> simp [render, below, hrooted, hne, Text.joinWith_append]
    rw [hrender, hcut, parse_append_slash (render_ne_nil hp), parse_render hp]
    simp [push_of_nothing]

/-! ## §4 Order of paths -/

/-- Whether a path leads to a directory around another one. -/
def IsAbove (p q : FilePath) : Prop := ∃ parts, parts ≠ [] ∧ q = p.below parts

theorem isAbove_below (p : FilePath) {parts : List Text} (h : parts ≠ []) : p.IsAbove (p.below parts) :=
  ⟨parts, h, rfl⟩

theorem IsAbove.trans {p q r : FilePath} (hpq : p.IsAbove q) (hqr : q.IsAbove r) : p.IsAbove r := by
  obtain ⟨parts, hne, rfl⟩ := hpq
  obtain ⟨more, -, rfl⟩ := hqr
  exact ⟨parts ++ more, by simp [hne], below_below p parts more⟩

theorem not_isAbove_self (p : FilePath) : ¬ p.IsAbove p := by
  rintro ⟨parts, hne, h⟩
  have hparts := congrArg FilePath.parts h
  rw [parts_below, List.self_eq_append_right] at hparts
  exact hne hparts

theorem IsAbove.ne {p q : FilePath} (h : p.IsAbove q) : p ≠ q := by
  rintro rfl
  exact not_isAbove_self p h

/-- The paths above a path are the beginnings of its components. -/
theorem isAbove_iff_take {p q : FilePath} :
    p.IsAbove q ↔ ∃ n, n < q.parts.length ∧ p = { q with parts := q.parts.take n } := by
  constructor
  · rintro ⟨parts, hne, rfl⟩
    refine ⟨p.parts.length, ?_, ?_⟩
    · have hpos : 0 < parts.length := List.length_pos_iff.mpr hne
      rw [parts_below, List.length_append]
      omega
    · simp [below]
  · rintro ⟨n, hn, rfl⟩
    refine ⟨q.parts.drop n, by simpa using hn, ?_⟩
    simp [below]

instance : DecidableRel IsAbove := fun _ _ => decidable_of_iff _ isAbove_iff_take.symm

/-- Two paths around the same path are on one line. -/
theorem IsAbove.total {p q r : FilePath} (hp : p.IsAbove r) (hq : q.IsAbove r) : p = q ∨ p.IsAbove q ∨ q.IsAbove p := by
  obtain ⟨m, hm, rfl⟩ := isAbove_iff_take.mp hp
  obtain ⟨n, hn, rfl⟩ := isAbove_iff_take.mp hq
  rcases Nat.lt_trichotomy m n with h | rfl | h
  · refine Or.inr (Or.inl (isAbove_iff_take.mpr ⟨m, by simp; omega, ?_⟩))
    simp [List.take_take, Nat.min_eq_left (Nat.le_of_lt h)]
  · exact Or.inl rfl
  · refine Or.inr (Or.inr (isAbove_iff_take.mpr ⟨n, by simp; omega, ?_⟩))
    simp [List.take_take, Nat.min_eq_left (Nat.le_of_lt h)]

/-- What is above a name in a directory is the directory, or above it. -/
theorem isAbove_name_iff {p dir : FilePath} {name : Text} : p.IsAbove (dir.below [name]) ↔ p = dir ∨ p.IsAbove dir := by
  have hdir : dir.IsAbove (dir.below [name]) := isAbove_below dir (by simp)
  constructor
  · intro hp
    rcases hp.total hdir with h | h | ⟨parts, hne, rfl⟩
    · exact Or.inl h
    · exact Or.inr h
    · -- between a directory and a name in it there is no room
      obtain ⟨more, hmore, heq⟩ := hp
      have hlength := congrArg (fun q : FilePath => q.parts.length) heq
      have hpos : 0 < parts.length := List.length_pos_iff.mpr hne
      have hpos' : 0 < more.length := List.length_pos_iff.mpr hmore
      simp only [parts_below, List.length_append, List.length_singleton] at hlength
      omega
  · rintro (rfl | hp)
    · exact hdir
    · exact hp.trans hdir

section Continued

variable {p q : FilePath} {rest : Text}

theorem rooted_of_render_eq (hp : p.Normal) (hq : q.Normal) (h : q.render = p.render ++ slash :: rest) :
    q.rooted = p.rooted := by
  rw [← beginsWith_slash_render hq, ← beginsWith_slash_render hp, h]
  cases hp' : p.render with
  | nil => exact absurd hp' (render_ne_nil hp)
  | cons b text => by_cases hb : slash = b <;> simp [Text.beginsWith, Text.stripPrefix?, hb]

/-- The text of a path without components is a single byte, so it continues no other. -/
theorem parts_ne_nil_of_render_eq (hp : p.Normal) (h : q.render = p.render ++ slash :: rest) : q.parts ≠ [] := by
  intro hnil
  have hlength := congrArg List.length h
  have hpos : 0 < p.render.length := List.length_pos_iff.mpr (render_ne_nil hp)
  have hone : q.render.length = 1 := by
    cases hrooted : q.rooted with
    | true => simp [render, hnil, hrooted]
    | false =>
      simp only [render, hnil, hrooted]
      rfl
  simp only [List.length_append, List.length_cons] at hlength
  omega

/-- No text continues that of a path without components: behind it would come an empty component or a dot. -/
theorem parts_ne_nil_of_continued (hp : p.Normal) (hq : q.Normal) (h : q.render = p.render ++ slash :: rest) :
    p.parts ≠ [] := by
  intro hnil
  have hqne := parts_ne_nil_of_render_eq hp h
  have hsplit := congrArg (Text.splitOn slash) h
  rw [Text.splitOn_append_sep, splitOn_render hq hqne, rooted_of_render_eq hp hq h] at hsplit
  obtain ⟨first, others, hparts⟩ := List.exists_cons_of_ne_nil hqne
  have hpushes := hq.pushes
  rw [hparts] at hsplit hpushes
  -- a place without parts is written as a slash or as a dot, and no part of the other place is empty or a dot
  cases hrooted : p.rooted with
  | true =>
    have hrender : p.render = [slash] := by simp [render, hnil, hrooted]
    rw [hrooted, hrender, Text.splitOn_cons_sep] at hsplit
    have hfirst : first = [] := (List.cons.inj (List.cons.inj hsplit).2).1
    exact ne_nil_of_mem_pushes hpushes first List.mem_cons_self hfirst
  | false =>
    have hrender : p.render = here := by simp [render, hnil, hrooted]
    rw [hrooted, hrender] at hsplit
    have hfirst : first = here := (List.cons.inj hsplit).1
    have hpush := hpushes.1
    rw [push_of_nothing (Or.inr hfirst)] at hpush
    cases hpush

end Continued

/-- A text in normal form that continues that of a path with a slash belongs to a path below it. -/
theorem isAbove_of_beginsWith {p q : FilePath} (hp : p.Normal) (hq : q.Normal)
    (h : Text.beginsWith (p.render ++ [slash]) q.render = true) : p.IsAbove q := by
  obtain ⟨rest, hrest⟩ := Text.beginsWith_iff.mp h
  have hrest : q.render = p.render ++ slash :: rest := by simpa using hrest.symm
  have hsplit := congrArg (Text.splitOn slash) hrest
  rw [Text.splitOn_append_sep, splitOn_render hp (parts_ne_nil_of_continued hp hq hrest),
    splitOn_render hq (parts_ne_nil_of_render_eq hp hrest)] at hsplit
  have hrooted := rooted_of_render_eq hp hq hrest
  refine ⟨Text.splitOn slash rest, Text.splitOn_ne_nil _ _, ?_⟩
  rw [hrooted, List.append_assoc, List.append_cancel_left_eq] at hsplit
  cases q with
  | mk rooted parts =>
    dsimp only at hrooted hsplit
    rw [hrooted, hsplit]
    rfl

/-- **A path is below another one** when its text continues that of the other with a slash. -/
theorem beginsWith_render_iff {p q : FilePath} (hp : p.Normal) (hq : q.Normal) (hne : p.parts ≠ []) :
    Text.beginsWith (p.render ++ [slash]) q.render = true ↔ p.IsAbove q := by
  constructor
  · exact isAbove_of_beginsWith hp hq
  · rintro ⟨parts, hparts, rfl⟩
    rw [Text.beginsWith_iff]
    refine ⟨Text.joinWith [slash] parts, ?_⟩
    cases hrooted : p.rooted <;>
      simp [render, below, hrooted, hne, Text.joinWith_append [slash] hne hparts]

/-! ## §5 Relative paths -/

theorem afterCommon_append (common rest : List Text) : afterCommon common (common ++ rest) = ([], rest) := by
  induction common with
  | nil => cases rest <;> rfl
  | cons part common ih => simp [afterCommon, ih]

/-- **Relative paths lead down.** -/
theorem relativePath?_below {p : FilePath} (hp : p.Normal) {parts : List Text} (h : ∀ part ∈ parts, Plain part) :
    relativePath? p.render (p.below parts).render = some ({ rooted := false, parts } : FilePath).render := by
  unfold relativePath?
  rw [parse_render hp, parse_render (normal_below hp h)]
  simp [afterCommon_append]

theorem afterCommon_eq {as bs us ds : List Text} (h : afterCommon as bs = (us, ds)) :
    ∃ common, as = common ++ us ∧ bs = common ++ ds := by
  induction as generalizing bs with
  | nil =>
    cases h
    exact ⟨[], rfl, rfl⟩
  | cons a as ih =>
    cases bs with
    | nil =>
      cases h
      exact ⟨[], rfl, rfl⟩
    | cons b bs =>
      rw [afterCommon] at h
      split at h
      · next hab =>
        subst hab
        obtain ⟨common, rfl, rfl⟩ := ih h
        exact ⟨a :: common, rfl, rfl⟩
      · cases h
        exact ⟨[], rfl, rfl⟩

/-- Behind a component that does not go up, none does. -/
theorem ne_up_of_pushes {rooted : Bool} {stack parts : List Text} {first : Text} (hfirst : first ≠ up)
    (h : Pushes rooted (first :: stack) parts) : ∀ part ∈ parts, part ≠ up := by
  induction parts generalizing stack first with
  | nil => simp
  | cons part parts ih =>
    obtain ⟨hpart, hrest⟩ := h
    have hne : part ≠ up := by
      rintro rfl
      rw [push_up_cons, if_neg hfirst] at hpart
      have hlength := congrArg List.length hpart
      simp only [List.length_cons] at hlength
      omega
    exact List.forall_mem_cons.mpr ⟨hne, ih hne hrest⟩

/-- Going up once for each component leads back. -/
theorem foldl_push_ups (rooted : Bool) {front stack : List Text} (h : ∀ part ∈ front, part ≠ up) :
    (List.replicate front.length up).foldl (push rooted) (front ++ stack) = stack := by
  induction front with
  | nil => rfl
  | cons first front ih =>
    obtain ⟨hfirst, hfront⟩ := List.forall_mem_cons.mp h
    rw [List.length_cons, List.replicate_succ, List.foldl_cons, List.cons_append, push_up_cons, if_neg hfirst, ih hfront]

/-- The text of a relative path leads where its components do. -/
theorem foldl_push_render (rooted : Bool) (stack : List Text) {parts : List Text} (h : ∀ part ∈ parts, slash ∉ part) :
    (Text.splitOn slash ({ rooted := false, parts } : FilePath).render).foldl (push rooted) stack =
      parts.foldl (push rooted) stack := by
  by_cases hne : parts = []
  · subst hne
    show push rooted stack here = stack
    exact push_of_nothing (Or.inr rfl)
  · have hrender : ({ rooted := false, parts } : FilePath).render = Text.joinWith [slash] parts := by
      simp [render, hne]
    rw [hrender, Text.splitOn_joinWith hne h]

theorem joinPath_pair {base : Text} (h : base ≠ []) (rel : Text) :
    joinPath [base, rel] = cleanPath (base ++ slash :: rel) := by
  unfold joinPath
  rw [List.dropWhile_cons_of_neg (by simpa using h)]
  dsimp only
  rw [Text.joinWith_cons _ _ (by simp), Text.joinWith_singleton, List.append_assoc]
  rfl

/-- **Joining a relative path to its base** leads to the target. -/
theorem joinPath_relativePath? {base target rel : Text} (hbase : base ≠ [])
    (h : relativePath? base target = some rel) : joinPath [base, rel] = cleanPath target := by
  unfold relativePath? at h
  dsimp only at h
  split at h
  · cases h
  next hrooted =>
  rw [ne_eq, not_not] at hrooted
  cases hcommon : afterCommon (parse base).parts (parse target).parts with
  | mk ups downs =>
  rw [hcommon] at h
  dsimp only at h
  split at h
  · cases h
  next hups =>
  cases h
  obtain ⟨common, hparts, hparts'⟩ := afterCommon_eq hcommon
  have hpushes := (normal_parse base).pushes
  have hpushes' := (normal_parse target).pushes
  rw [hparts, pushes_append, List.append_nil] at hpushes
  rw [hparts', pushes_append, List.append_nil] at hpushes'
  -- what is left of the base does not go up, so going up leads to what the two paths share
  have hdown : ∀ part ∈ ups.reverse, part ≠ up := by
    intro part hpart
    rw [List.mem_reverse] at hpart
    cases ups with
    | nil => cases hpart
    | cons first rest =>
      have hfirst : first ≠ up := fun heq => hups (congrArg some heq)
      have hall : ∀ part ∈ first :: rest, part ≠ up :=
        List.forall_mem_cons.mpr ⟨hfirst, ne_up_of_pushes hfirst hpushes.2.2⟩
      exact hall part hpart
  have hback : (ups.map fun _ => up).foldl (push (parse base).rooted) (ups.reverse ++ common.reverse) =
      common.reverse := by
    rw [List.map_const', ← List.length_reverse]
    exact foldl_push_ups _ hdown
  have hslash : ∀ part ∈ (ups.map fun _ => up) ++ downs, slash ∉ part := by
    intro part hpart
    rcases List.mem_append.mp hpart with hpart | hpart
    · obtain ⟨-, -, rfl⟩ := List.mem_map.mp hpart
      decide
    · exact (normal_parse target).noSlash part (hparts' ▸ List.mem_append_right _ hpart)
  have hparse : parse (base ++ slash ::
      ({ rooted := false, parts := (ups.map fun _ => up) ++ downs } : FilePath).render) = parse target := by
    rw [parse_append_slash hbase, foldl_push_render _ _ hslash, hparts, List.foldl_append, List.reverse_append, hback,
      hrooted, foldl_push hpushes'.2, List.reverse_append, List.reverse_reverse, List.reverse_reverse, ← hparts']
  rw [joinPath_pair hbase, cleanPath, hparse]
  rfl

/-! ## §6 Last components -/

/-- What a text has behind its last slash. -/
def lastPart (text : Text) : Text := (text.reverse.takeWhile (· ≠ slash)).reverse

theorem lastPart_append_slash (before after : Text) : lastPart (before ++ slash :: after) = lastPart after := by
  unfold lastPart
  rw [List.reverse_append, List.reverse_cons, List.append_assoc, List.takeWhile_append]
  split
  · next hall =>
    -- there is no slash in what follows, so all of it is taken, and nothing more
    rw [(List.takeWhile_prefix _).eq_of_length hall]
    simp
  · rfl

theorem lastPart_append (before : Text) {after : Text} (h : slash ∉ after) :
    lastPart (before ++ after) = lastPart before ++ after := by
  have htake : ∀ b ∈ after.reverse, decide (b ≠ slash) = true := by
    intro b hb
    rw [decide_eq_true_eq]
    rintro rfl
    exact h (List.mem_reverse.mp hb)
  unfold lastPart
  rw [List.reverse_append, List.takeWhile_append_of_pos htake, List.reverse_append, List.reverse_reverse]

theorem slash_not_mem_lastPart (text : Text) : slash ∉ lastPart text := by
  unfold lastPart
  intro h
  simpa using List.mem_takeWhile_imp (List.mem_reverse.mp h)

theorem lastPart_joinWith (front : List Text) {last : Text} (h : slash ∉ last) :
    lastPart (Text.joinWith [slash] (front ++ [last])) = last := by
  have hlast : lastPart last = last := lastPart_append [] h
  by_cases hfront : front = []
  · rw [hfront, List.nil_append, Text.joinWith_singleton, hlast]
  · rw [Text.joinWith_append _ hfront (by simp), Text.joinWith_singleton, List.append_assoc, List.singleton_append,
      lastPart_append_slash, hlast]

theorem splitOn_eq_append_lastPart (text : Text) : ∃ front, Text.splitOn slash text = front ++ [lastPart text] := by
  obtain ⟨front, last, hsplit⟩ := (List.eq_nil_or_concat' (Text.splitOn slash text)).resolve_left
    (Text.splitOn_ne_nil slash text)
  have hlast : slash ∉ last := Text.not_mem_of_mem_splitOn (show last ∈ Text.splitOn slash text by simp [hsplit])
  refine ⟨front, ?_⟩
  rw [hsplit, ← Text.joinWith_splitOn slash text, hsplit, lastPart_joinWith front hlast]

/-- **A name stays the last component** of a path in normal form. -/
theorem lastPart_cleanPath {text : Text} (h : Plain (lastPart text)) : lastPart (cleanPath text) = lastPart text := by
  obtain ⟨front, hsplit⟩ := splitOn_eq_append_lastPart text
  -- the last component joins the stack last, and nothing takes it away again
  have hparts : ∃ stack, (parse text).parts = stack ++ [lastPart text] := by
    refine ⟨(front.foldl (push (Text.beginsWith [slash] text)) []).reverse, ?_⟩
    unfold parse
    dsimp only
    rw [hsplit, List.foldl_append, List.foldl_cons, List.foldl_nil, push_plain h, List.reverse_cons]
  obtain ⟨stack, hparts⟩ := hparts
  have hjoined : lastPart (Text.joinWith [slash] (parse text).parts) = lastPart text := by
    rw [hparts, lastPart_joinWith stack (slash_not_mem_lastPart text)]
  unfold cleanPath render
  dsimp only
  split
  · exact (lastPart_append_slash [] _).trans hjoined
  · rw [if_neg (by simp [hparts])]
    exact hjoined

theorem lastPart_joinPath (dir : Text) {name : Text} (h : Plain (lastPart name)) :
    lastPart (joinPath [dir, name]) = lastPart name := by
  have hname : name ≠ [] := by
    rintro rfl
    exact h.ne_nil rfl
  -- an empty directory is left out, and the name is the whole path
  by_cases hdir : dir = []
  · have hjoin : joinPath [dir, name] = cleanPath name := by simp [joinPath, hdir, hname, Text.joinWith]
    rw [hjoin, lastPart_cleanPath h]
  · have hlast : lastPart (dir ++ slash :: name) = lastPart name := lastPart_append_slash dir name
    rw [joinPath_pair hdir, lastPart_cleanPath (by rwa [hlast]), hlast]

end HeaderReflection.FilePath
