import ExactAlgebra.Proofs.Json.WellFormed

/-!
# Texts that hold no members

An object begins with a brace, and its members begin with a quote. So a text that begins in another
way is no object, and a text without quotes is no object with members, whatever else it is.

## Main statements

* `not_object_of_head` — a text that does not begin with a mark;
* `members_eq_nil_of_noQuote` — a text without quotes.

## Main definitions

* `Token.IsBare`, `Reader.IsBare` — without names and members.
-/

namespace ExactAlgebra.Json

/-! ## The first token -/

namespace Reader

/-- Behind a value by itself there can be no more tokens. -/
theorem run_complete {value : Json} {ts : List Token} {last : Reader}
    (run : ts.foldlM step ⟨.separator, [], some value⟩ = some last) : last.result = some value := by
  cases ts with
  | nil =>
    obtain rfl := Option.some.inj run
    rfl
  | cons t ts =>
    have stuck : step ⟨.separator, [], some value⟩ t = none := by cases t <;> rfl
    rw [List.foldlM_cons, stuck] at run
    cases run

end Reader

/-- **A text that begins with neither a blank nor a mark** is no object. -/
theorem not_object_of_head {text : String} {c : Char} {rest : List Char}
    (begins : text.toList = c :: rest) (noSpace : isSpace c = false) (noMark : mark? c = none)
    (members : Members) : parse? text ≠ some (.object members) := by
  intro read
  obtain ⟨ts, tokens, read⟩ := Option.bind_eq_some_iff.mp read
  obtain ⟨last, run, result⟩ := Option.bind_eq_some_iff.mp read
  rw [tokens?, begins, tokensFrom?, if_neg (by rw [noSpace]; exact Bool.false_ne_true)] at tokens
  split at tokens
  · cases tokens
  · rename_i t after first
    obtain ⟨more, -, rfl⟩ := Option.map_eq_some_iff.mp tokens
    rw [List.foldlM_cons] at run
    rcases token?_cases first with mark | ⟨-, s, rfl⟩ | ⟨-, value, rfl, scalar⟩
    · rw [noMark] at mark
      cases mark
    · rw [Reader.run_complete run] at result
      cases result
    · rw [Reader.run_complete run] at result
      obtain rfl := Option.some.inj result
      cases scalar

/-! ## Texts without quotes -/

/-- A token that is no string. -/
def Token.IsBare : Token → Prop
  | .string _ => False
  | .scalar value => value.IsScalar
  | _ => True

theorem isBare_tokens {skip : ℕ} {cs : List Char} {ts : List Token} (noQuote : '"' ∉ cs)
    (read : tokensFrom? skip cs = some ts) : ∀ t ∈ ts, t.IsBare := by
  intro t mem
  obtain ⟨c, inside, rest, after, first⟩ := mem_tokens read t mem
  rcases token?_cases first with mark | ⟨rfl, -⟩ | ⟨-, value, rfl, scalar⟩
  · unfold mark? at mark
    split at mark <;> cases mark <;> trivial
  · exact absurd inside noQuote
  · exact scalar

/-- An array, or an object without members. -/
def Open.IsBare : Open → Prop
  | .array _ => True
  | .object members => members = []
  | .member _ _ => False

namespace Reader

/-- **A reader that has come to no member.** -/
structure IsBare (r : Reader) : Prop where
  opened : ∀ o ∈ r.opened, o.IsBare
  result : ∀ members, r.result = some (.object members) → members = []

variable {opened : List Open} {value : Json} {r s : Reader} {t : Token}

theorem isBare_complete (empty : ∀ members, value = .object members → members = [])
    (each : ∀ o ∈ opened, o.IsBare) (done : complete value opened = some r) : r.IsBare := by
  unfold complete at done
  split at done
  · obtain rfl := Option.some.inj done
    exact ⟨List.forall_mem_nil _, fun members same => empty members (Option.some.inj same)⟩
  · obtain rfl := Option.some.inj done
    exact ⟨List.forall_mem_cons.mpr ⟨trivial, (List.forall_mem_cons.mp each).2⟩, by simp⟩
  · exact absurd ((List.forall_mem_cons.mp each).1) id
  · cases done

theorem isBare_beginValue (token : t.IsBare) (each : ∀ o ∈ opened, o.IsBare)
    (done : beginValue opened t = some r) : r.IsBare := by
  unfold beginValue at done
  split at done
  · obtain rfl := Option.some.inj done
    exact ⟨List.forall_mem_cons.mpr ⟨trivial, each⟩, by simp⟩
  · obtain rfl := Option.some.inj done
    exact ⟨List.forall_mem_cons.mpr ⟨rfl, each⟩, by simp⟩
  · exact absurd token id
  · refine isBare_complete ?_ each done
    rintro members rfl
    cases token
  · cases done

theorem beginMember_of_isBare (token : t.IsBare) : beginMember opened t = none := by
  unfold beginMember
  split
  · exact absurd token id
  · rfl

theorem isBare_close (each : ∀ o ∈ opened, o.IsBare) (done : close opened t = some r) :
    r.IsBare := by
  unfold close at done
  split at done
  · obtain ⟨-, others⟩ := List.forall_mem_cons.mp each
    exact isBare_complete (by simp) others done
  · obtain ⟨empty, others⟩ := List.forall_mem_cons.mp each
    refine isBare_complete ?_ others done
    rintro members same
    rw [← Json.object.inj same]
    exact empty
  · cases done

theorem isBare_separate (each : ∀ o ∈ opened, o.IsBare) (done : separate opened t = some r) :
    r.IsBare := by
  unfold separate at done
  split at done
  · obtain rfl := Option.some.inj done
    exact ⟨each, by simp⟩
  · obtain rfl := Option.some.inj done
    exact ⟨each, by simp⟩
  · exact isBare_close each done

/-- **One token that is no string** leads to no member. -/
theorem IsBare.step (bare : r.IsBare) (token : t.IsBare) (done : r.step t = some s) :
    s.IsBare := by
  unfold Reader.step at done
  split at done
  · exact isBare_beginValue token bare.opened done
  · exact isBare_close bare.opened done
  · exact isBare_beginValue token bare.opened done
  · exact isBare_close bare.opened done
  · rw [beginMember_of_isBare token] at done
    cases done
  · rw [beginMember_of_isBare token] at done
    cases done
  · obtain rfl := Option.some.inj done
    exact ⟨bare.opened, by simp⟩
  · cases done
  · exact isBare_separate bare.opened done

theorem IsBare.run {ts : List Token} (bare : r.IsBare) (tokens : ∀ t ∈ ts, t.IsBare)
    (done : ts.foldlM Reader.step r = some s) : s.IsBare := by
  induction ts generalizing r with
  | nil =>
    obtain rfl := Option.some.inj done
    exact bare
  | cons t ts ih =>
    obtain ⟨first, others⟩ := List.forall_mem_cons.mp tokens
    rw [List.foldlM_cons] at done
    obtain ⟨next, here, more⟩ := Option.bind_eq_some_iff.mp done
    exact ih (bare.step first here) others more

end Reader

/-- **A text without quotes** is no object with members. -/
theorem members_eq_nil_of_noQuote {text : String} (noQuote : '"' ∉ text.toList)
    {members : Members} (read : parse? text = some (.object members)) : members = [] := by
  obtain ⟨ts, tokens, read⟩ := Option.bind_eq_some_iff.mp read
  obtain ⟨last, run, result⟩ := Option.bind_eq_some_iff.mp read
  have begins : Reader.IsBare ⟨.value, [], none⟩ := ⟨List.forall_mem_nil _, by simp⟩
  exact (begins.run (isBare_tokens noQuote tokens) run).result members result

end ExactAlgebra.Json
