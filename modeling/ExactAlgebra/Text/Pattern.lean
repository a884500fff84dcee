/-!
# Patterns

A pattern describes how a text can begin. It is made from classes of characters: one character of a
class, or any number of them; one pattern behind another, one or else another, a pattern that may be
missing, and a group, whose part of the text is kept under a name. A text can begin in more than one
way that the pattern describes. The ways are listed by preference: as many characters of a class as
possible, the first of two patterns before the second one, and what may be missing before nothing. A
way is taken only if what is left of the text goes on as the pattern does.

## Main statements

* `Pattern.matched_append_after` — what is matched and what follows make up the text;
* `Pattern.best?_shorter` — a pattern that is never empty leaves less of the text over;
* `Pattern.best?_many`, `Pattern.best?_followed`, … — the preferred way of each kind of pattern.

## Main definitions

* `Pattern` — patterns, and `Way` — a way in which a text begins;
* `Pattern.ways`, `Pattern.best?` — all ways by preference, and the first of them;
* `Pattern.consumes` — whether a pattern is never empty.
-/

namespace ExactAlgebra.Text

variable {α : Type}

/-- **A pattern** with groups that are named by `α`. -/
inductive Pattern (α : Type) where
  | one (inClass : Char → Bool)
  | many (inClass : Char → Bool)
  | followed (first second : Pattern α)
  | either (first second : Pattern α)
  | perhaps (p : Pattern α)
  | group (name : α) (p : Pattern α)

/-- **A way in which a text begins**: what is matched, the groups with their parts of it, and what
follows. -/
structure Way (α : Type) where
  matched : List Char
  groups : List (α × List Char)
  after : List Char

namespace Way

/-- Nothing is matched. -/
def nothing (cs : List Char) : Way α :=
  ⟨[], [], cs⟩

/-- One more character in front. -/
def behind (c : Char) (w : Way α) : Way α :=
  ⟨c :: w.matched, w.groups, w.after⟩

/-- A way for what one way has left over. -/
def followedBy (w v : Way α) : Way α :=
  ⟨w.matched ++ v.matched, w.groups ++ v.groups, v.after⟩

/-- A way whose match is kept under a name. -/
def named (name : α) (w : Way α) : Way α :=
  ⟨w.matched, (name, w.matched) :: w.groups, w.after⟩

end Way

namespace Pattern

/-- The ways to match characters of a class, the longest one first. -/
def manyWays (inClass : Char → Bool) : List Char → List (Way α)
  | [] => [.nothing []]
  | c :: cs =>
    if inClass c then (manyWays inClass cs).map (Way.behind c) ++ [.nothing (c :: cs)]
    else [.nothing (c :: cs)]

/-- **The ways in which a text begins** that a pattern describes, by preference. -/
def ways : Pattern α → List Char → List (Way α)
  | one _, [] => []
  | one inClass, c :: cs => if inClass c then [⟨[c], [], cs⟩] else []
  | many inClass, cs => manyWays inClass cs
  | followed p q, cs => (p.ways cs).flatMap fun w => (q.ways w.after).map w.followedBy
  | either p q, cs => p.ways cs ++ q.ways cs
  | perhaps p, cs => p.ways cs ++ [.nothing cs]
  | group name p, cs => (p.ways cs).map (Way.named name)

/-- **The preferred way**, unless the text does not begin as the pattern describes. -/
def best? (p : Pattern α) (cs : List Char) : Option (Way α) :=
  (p.ways cs).head?

/-- At least one character of a class. -/
def several (inClass : Char → Bool) : Pattern α :=
  .followed (.one inClass) (.many inClass)

/-- Whether a pattern is never empty. -/
def consumes : Pattern α → Bool
  | one _ => true
  | many _ | perhaps _ => false
  | followed p q => p.consumes || q.consumes
  | either p q => p.consumes && q.consumes
  | group _ p => p.consumes

theorem manyWays_append {inClass : Char → Bool} {cs : List Char} {w : Way α}
    (mem : w ∈ manyWays inClass cs) : w.matched ++ w.after = cs := by
  induction cs generalizing w with
  | nil =>
    obtain rfl := List.mem_singleton.mp mem
    rfl
  | cons c cs ih =>
    rw [manyWays] at mem
    split at mem
    · rcases List.mem_append.mp mem with mem | mem
      · obtain ⟨v, inside, rfl⟩ := List.mem_map.mp mem
        exact congrArg (c :: ·) (ih inside)
      · obtain rfl := List.mem_singleton.mp mem
        rfl
    · obtain rfl := List.mem_singleton.mp mem
      rfl

/-- **What is matched and what follows** make up the text. -/
theorem matched_append_after {p : Pattern α} {cs : List Char} {w : Way α} (mem : w ∈ p.ways cs) :
    w.matched ++ w.after = cs := by
  induction p generalizing cs w with
  | one inClass =>
    cases cs with
    | nil => cases mem
    | cons c cs =>
      rw [ways] at mem
      split at mem
      · obtain rfl := List.mem_singleton.mp mem
        rfl
      · cases mem
  | many inClass => exact manyWays_append mem
  | followed p q first second =>
    obtain ⟨v, inside, mem⟩ := List.mem_flatMap.mp mem
    obtain ⟨u, behind, rfl⟩ := List.mem_map.mp mem
    rw [← first inside, ← second behind]
    exact List.append_assoc v.matched u.matched u.after
  | either p q first second =>
    rcases List.mem_append.mp mem with mem | mem
    · exact first mem
    · exact second mem
  | perhaps p ih =>
    rcases List.mem_append.mp mem with mem | mem
    · exact ih mem
    · obtain rfl := List.mem_singleton.mp mem
      rfl
  | group name p ih =>
    obtain ⟨v, inside, rfl⟩ := List.mem_map.mp mem
    have parts : v.matched ++ v.after = cs := ih inside
    exact parts

/-- A pattern that is never empty matches something. -/
theorem matched_ne_nil {p : Pattern α} (consumes : p.consumes = true) {cs : List Char} {w : Way α}
    (mem : w ∈ p.ways cs) : w.matched ≠ [] := by
  induction p generalizing cs w with
  | one inClass =>
    cases cs with
    | nil => cases mem
    | cons c cs =>
      rw [ways] at mem
      split at mem
      · obtain rfl := List.mem_singleton.mp mem
        exact List.cons_ne_nil c []
      · cases mem
  | many inClass => cases consumes
  | followed p q first second =>
    obtain ⟨v, inside, mem⟩ := List.mem_flatMap.mp mem
    obtain ⟨u, behind, rfl⟩ := List.mem_map.mp mem
    rcases (Bool.or_eq_true _ _).mp consumes with front | back
    · exact List.append_ne_nil_of_left_ne_nil (first front inside) u.matched
    · exact List.append_ne_nil_of_right_ne_nil v.matched (second back behind)
  | either p q first second =>
    obtain ⟨front, back⟩ := (Bool.and_eq_true _ _).mp consumes
    rcases List.mem_append.mp mem with mem | mem
    · exact first front mem
    · exact second back mem
  | perhaps p ih => cases consumes
  | group name p ih =>
    obtain ⟨v, inside, rfl⟩ := List.mem_map.mp mem
    have nonempty : v.matched ≠ [] := ih consumes inside
    exact nonempty

theorem mem_of_best? {p : Pattern α} {cs : List Char} {w : Way α} (best : p.best? cs = some w) :
    w ∈ p.ways cs :=
  List.mem_of_head? best

/-- **Less of the text is left over** by a pattern that is never empty. -/
theorem best?_shorter {p : Pattern α} (consumes : p.consumes = true) {cs : List Char} {w : Way α}
    (best : p.best? cs = some w) : w.after.length < cs.length := by
  have parts := congrArg List.length (matched_append_after (mem_of_best? best))
  have nonempty := List.length_pos_iff.mpr (matched_ne_nil consumes (mem_of_best? best))
  rw [List.length_append] at parts
  omega

/-! ## The preferred way -/

section Best

variable (inClass : Char → Bool) (p q : Pattern α) {cs : List Char} {w v : Way α}

/-- **Characters of a class** are matched as long as there are some. -/
theorem best?_many (cs : List Char) :
    (many inClass : Pattern α).best? cs = some ⟨cs.takeWhile inClass, [], cs.dropWhile inClass⟩ := by
  show (manyWays inClass cs).head? = _
  induction cs with
  | nil => rfl
  | cons c cs ih =>
    rw [manyWays, List.takeWhile_cons, List.dropWhile_cons]
    split
    · rw [List.head?_append, List.head?_map, ih]
      rfl
    · rfl

variable {p} in
/-- **One pattern behind another**, if the second one can go on where the first one prefers to end. -/
theorem best?_followed {q : Pattern α} (first : p.best? cs = some w) (second : q.best? w.after = some v) :
    (followed p q).best? cs = some (w.followedBy v) := by
  show ((p.ways cs).flatMap fun w => (q.ways w.after).map w.followedBy).head? = _
  obtain ⟨others, front⟩ := List.head?_eq_some_iff.mp first
  obtain ⟨others', back⟩ := List.head?_eq_some_iff.mp second
  rw [front, List.flatMap_cons, back]
  rfl

variable {p} in
theorem best?_followed_none (first : p.best? cs = none) : (followed p q).best? cs = none := by
  show ((p.ways cs).flatMap fun w => (q.ways w.after).map w.followedBy).head? = none
  rw [List.head?_eq_none_iff.mp first, List.flatMap_nil, List.head?_nil]

theorem best?_either (cs : List Char) :
    (either p q).best? cs = (p.best? cs).or (q.best? cs) :=
  List.head?_append

theorem best?_perhaps (cs : List Char) :
    (perhaps p).best? cs = (p.best? cs).or (some (.nothing cs)) :=
  List.head?_append

theorem best?_group (name : α) (cs : List Char) :
    (group name p).best? cs = (p.best? cs).map (Way.named name) :=
  List.head?_map

theorem best?_one (c : Char) (cs : List Char) :
    (one inClass : Pattern α).best? (c :: cs) = if inClass c then some ⟨[c], [], cs⟩ else none := by
  show (if inClass c then [(⟨[c], [], cs⟩ : Way α)] else []).head? = _
  split <;> rfl

/-- **One pattern behind a single character**, which can be matched in one way only. -/
theorem best?_one_followed (c : Char) (cs : List Char) :
    (followed (.one inClass) q).best? (c :: cs) =
      if inClass c then (q.best? cs).map (Way.followedBy ⟨[c], [], cs⟩) else none := by
  show (((if inClass c then [⟨[c], [], cs⟩] else []) : List (Way α)).flatMap
    fun w => (q.ways w.after).map w.followedBy).head? = _
  split
  · rw [List.flatMap_singleton, List.head?_map]
    rfl
  · rfl

/-- **At least one character of a class** is matched unless the text begins with another one. -/
theorem best?_several (cs : List Char) : (several inClass : Pattern α).best? cs =
    if cs.takeWhile inClass = [] then none
    else some ⟨cs.takeWhile inClass, [], cs.dropWhile inClass⟩ := by
  cases cs with
  | nil => rfl
  | cons c cs =>
    rw [several, best?_one_followed, best?_many, List.takeWhile_cons, List.dropWhile_cons]
    split <;> rfl

end Best

end Pattern

end ExactAlgebra.Text
