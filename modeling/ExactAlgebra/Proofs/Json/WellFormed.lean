import ExactAlgebra.Json.Parse
import ExactAlgebra.Proofs.Decimal.Rounding
import Mathlib.Data.List.Nodup

/-!
# Well-formed JSON values

In a well-formed value the names of an object are distinct, and every number with a point or an
exponent is a double. Setting a member, or removing one, keeps an object well-formed. What is read
from a text is well-formed, whatever the text is.

## Main statements

* `Members.get?_erase`, `Members.get?_overlay` — the members after a change;
* `Members.IsWellFormed.put`, `Members.IsWellFormed.erase` — changes keep an object well-formed;
* `isWellFormed_parse?` — what is read is well-formed.

## Main definitions

* `Json.IsWellFormed`, `Members.IsWellFormed` — values, and the members of an object;
* `Json.IsScalar` — words and numbers.
-/

namespace ExactAlgebra.Json

/-- **A well-formed value.** -/
inductive IsWellFormed : Json → Prop where
  | null : IsWellFormed .null
  | bool (value : Bool) : IsWellFormed (.bool value)
  | int (value : ℤ) : IsWellFormed (.int value)
  | float {value : Binary64} (real : value.IsReal) : IsWellFormed (.float value)
  | string (value : String) : IsWellFormed (.string value)
  | array {items : List Json} (each : ∀ item ∈ items, IsWellFormed item) :
      IsWellFormed (.array items)
  | object {members : List (String × Json)} (distinct : (members.map Prod.fst).Nodup)
      (each : ∀ member ∈ members, IsWellFormed member.2) : IsWellFormed (.object members)

namespace Members

/-! ## Members -/

/-- The names of the members. -/
def names (members : Members) : List String :=
  members.map Prod.fst

/-- **The members of a well-formed object.** -/
structure IsWellFormed (members : Members) : Prop where
  distinct : members.names.Nodup
  each : ∀ member ∈ members, member.2.IsWellFormed

theorem IsWellFormed.object {members : Members} (wf : members.IsWellFormed) :
    Json.IsWellFormed (.object members) :=
  .object wf.distinct wf.each

theorem isWellFormed_of_object {members : Members} (wf : Json.IsWellFormed (.object members)) :
    members.IsWellFormed := by
  cases wf with
  | object distinct each => exact ⟨distinct, each⟩

theorem isWellFormed_nil : IsWellFormed [] :=
  ⟨List.nodup_nil, List.forall_mem_nil _⟩

variable {name : String} {value : Json} {members : Members}

theorem mem_of_get? (found : get? name members = some value) : (name, value) ∈ members := by
  induction members with
  | nil => cases found
  | cons member rest ih =>
    rw [get?] at found
    split at found
    · rename_i same
      obtain rfl := Option.some.inj found
      rw [← same]
      exact List.mem_cons_self
    · exact List.mem_cons_of_mem _ (ih found)

theorem get?_eq_none_iff : get? name members = none ↔ name ∉ members.names := by
  induction members with
  | nil => simp [get?, names]
  | cons member rest ih =>
    rw [get?]
    split
    · rename_i same
      simp [names, same]
    · rename_i other
      rw [ih, names, names, List.map_cons, List.mem_cons, not_or]
      simp [Ne.symm other]

/-- A member is found if no other one has its name. -/
theorem get?_of_mem (distinct : members.names.Nodup) (mem : (name, value) ∈ members) :
    get? name members = some value := by
  induction members with
  | nil => cases mem
  | cons member rest ih =>
    rw [names, List.map_cons, List.nodup_cons] at distinct
    rw [get?]
    rcases List.mem_cons.mp mem with rfl | mem
    · rw [if_pos rfl]
    · have other : member.1 ≠ name := by
        rintro rfl
        exact distinct.1 (List.mem_map.mpr ⟨_, mem, rfl⟩)
      rw [if_neg other, ih distinct.2 mem]

/-- **A new member comes last.** -/
theorem put_of_new (new : name ∉ members.names) :
    put name value members = members ++ [(name, value)] := by
  induction members with
  | nil => rfl
  | cons member rest ih =>
    rw [names, List.map_cons, List.mem_cons, not_or] at new
    rw [put, if_neg (Ne.symm new.1), ih new.2]
    rfl

theorem names_put : (put name value members).names =
    if name ∈ members.names then members.names else members.names ++ [name] := by
  split
  · rename_i here
    induction members with
    | nil => cases here
    | cons member rest ih =>
      rw [put]
      split
      · rfl
      · rename_i other
        rw [names, List.map_cons, List.mem_cons] at here
        rw [names, List.map_cons, ← names, ih (here.resolve_left (Ne.symm other))]
        rfl
  · rename_i new
    rw [put_of_new new, names, List.map_append]
    rfl

theorem mem_put {member : String × Json} (mem : member ∈ put name value members) :
    member = (name, value) ∨ member ∈ members := by
  induction members with
  | nil => exact .inl (List.mem_singleton.mp mem)
  | cons first rest ih =>
    rw [put] at mem
    split at mem
    · rename_i same
      rcases List.mem_cons.mp mem with rfl | mem
      · exact .inl (by rw [same])
      · exact .inr (List.mem_cons_of_mem _ mem)
    · rcases List.mem_cons.mp mem with rfl | mem
      · exact .inr List.mem_cons_self
      · exact (ih mem).imp_right (List.mem_cons_of_mem _)

/-- **Setting a member** keeps the object well-formed. -/
theorem IsWellFormed.put (wf : members.IsWellFormed) (name : String) (new : value.IsWellFormed) :
    (Members.put name value members).IsWellFormed := by
  constructor
  · rw [names_put]
    split
    · exact wf.distinct
    · rename_i absent
      exact List.nodup_append.mpr ⟨wf.distinct, List.nodup_singleton name, by
        intro a mem b single same
        rw [List.mem_singleton.mp single] at same
        exact absent (same ▸ mem)⟩
  · intro member mem
    rcases mem_put mem with rfl | mem
    · exact new
    · exact wf.each member mem

/-- **Removing a member** keeps the object well-formed. -/
theorem IsWellFormed.erase (wf : members.IsWellFormed) (name : String) :
    (Members.erase name members).IsWellFormed := by
  constructor
  · exact wf.distinct.sublist (List.filter_sublist.map Prod.fst)
  · intro member mem
    exact wf.each member (List.mem_of_mem_filter mem)

/-- **The members without one of them.** -/
theorem get?_erase (key : String) :
    get? key (erase name members) = if key = name then none else get? key members := by
  induction members with
  | nil => simp [erase, get?]
  | cons member rest ih =>
    rw [erase] at ih
    rw [erase, List.filter_cons]
    by_cases here : member.1 = name
    · rw [if_neg (by simpa using here), ih]
      split
      · rfl
      · rename_i other
        rw [get?, if_neg (by rw [here]; exact Ne.symm other)]
    · rw [if_pos (by simpa using here), get?, get?, ih]
      by_cases same : member.1 = key
      · rw [if_pos same, if_pos same, if_neg (by rwa [← same])]
      · rw [if_neg same, if_neg same]

/-- **The members of one object, overlaid with those of another.** -/
theorem get?_overlay {added : Members} (distinct : added.names.Nodup) (key : String)
    (members : Members) :
    get? key (overlay members added) = (get? key added).or (get? key members) := by
  induction added generalizing members with
  | nil => rfl
  | cons member rest ih =>
    rw [names, List.map_cons, List.nodup_cons] at distinct
    change get? key (overlay (put member.1 member.2 members) rest) = _
    rw [ih distinct.2, get?_put, get?]
    by_cases here : key = member.1
    · have later : get? key rest = none := get?_eq_none_iff.mpr (here ▸ distinct.1)
      rw [later, if_pos here, if_pos here.symm]
      rfl
    · rw [if_neg here, if_neg (Ne.symm here)]

/-- The order of the members does not matter. -/
theorem get?_perm {other : Members} (distinct : members.names.Nodup)
    (same : other.Perm members) (key : String) : get? key other = get? key members := by
  have distinct' : other.names.Nodup := (same.map Prod.fst).nodup_iff.mpr distinct
  cases found : get? key members with
  | none =>
    rw [get?_eq_none_iff] at found ⊢
    exact fun mem => found ((same.map Prod.fst).mem_iff.mp mem)
  | some value => exact get?_of_mem distinct' (same.mem_iff.mpr (mem_of_get? found))

theorem mem_overlay {added : Members} {member : String × Json}
    (mem : member ∈ overlay members added) : member ∈ members ∨ member ∈ added := by
  induction added generalizing members with
  | nil => exact .inl mem
  | cons first rest ih =>
    rcases ih mem with mem | mem
    · rcases mem_put mem with rfl | mem
      · exact .inr List.mem_cons_self
      · exact .inl mem
    · exact .inr (List.mem_cons_of_mem _ mem)

end Members

/-! ## Tokens -/

/-- **A value that is one token**: a word or a number. -/
inductive IsScalar : Json → Prop where
  | null : IsScalar .null
  | bool (value : Bool) : IsScalar (.bool value)
  | int (value : ℤ) : IsScalar (.int value)
  | float {value : Binary64} (real : value.IsReal) : IsScalar (.float value)

theorem IsScalar.isWellFormed {value : Json} (scalar : value.IsScalar) : value.IsWellFormed := by
  cases scalar with
  | null => exact .null
  | bool b => exact .bool b
  | int n => exact .int n
  | float real => exact .float real

theorem isScalar_word {cs after : List Char} {value : Json}
    (read : word? cs = some (value, after)) : value.IsScalar := by
  obtain ⟨entry, found, same⟩ := Option.map_eq_some_iff.mp read
  obtain ⟨rfl, -⟩ := Prod.mk.inj same
  have each : ∀ entry ∈ words, entry.2.IsScalar := by
    simp only [words, List.forall_mem_cons]
    exact ⟨.null, .bool true, .bool false, .float trivial, .float trivial, .float trivial,
      List.forall_mem_nil _⟩
  exact each entry (List.mem_of_find?_eq_some found)

/-- **A number** with a point or an exponent denotes a double. -/
theorem isScalar_numberOf (negative : Bool) (whole places : List ℕ) (exponent : Option ℤ) :
    (numberOf negative whole places exponent).IsScalar := by
  cases exponent with
  | some e => exact .float (Binary64.isReal_ofDecimal _ _ _)
  | none =>
    rw [numberOf]
    split
    · exact .int _
    · exact .float (Binary64.isReal_ofDecimal _ _ _)

theorem isScalar_magnitude {negative : Bool} {cs after : List Char} {value : Json}
    (read : magnitude? negative cs = some (value, after)) : value.IsScalar := by
  unfold magnitude? at read
  split at read
  · cases read
  · dsimp only at read
    split at read
    · obtain ⟨rfl, -⟩ := Prod.mk.inj (Option.some.inj read)
      exact isScalar_numberOf _ _ _ _
    · obtain ⟨rfl, -⟩ := Prod.mk.inj (Option.some.inj read)
      exact isScalar_numberOf _ _ _ _

/-- **A token by its first character**: a mark, a string behind a quote, or a scalar. -/
theorem token?_cases {c : Char} {rest after : List Char} {t : Token}
    (read : token? (c :: rest) = some (t, after)) :
    mark? c = some t ∨ (c = '"' ∧ ∃ s, t = .string s) ∨
      (mark? c = none ∧ ∃ value : Json, t = .scalar value ∧ value.IsScalar) := by
  rw [token?] at read
  split at read
  · rename_i mark found
    obtain ⟨rfl, -⟩ := Prod.mk.inj (Option.some.inj read)
    exact .inl found
  · rename_i none
    split at read
    · rename_i quote
      obtain ⟨⟨s, _⟩, -, same⟩ := Option.map_eq_some_iff.mp read
      obtain ⟨rfl, -⟩ := Prod.mk.inj same
      exact .inr (.inl ⟨quote, s, rfl⟩)
    · refine .inr (.inr ⟨none, ?_⟩)
      split at read
      · rename_i value _ word
        obtain ⟨rfl, -⟩ := Prod.mk.inj (Option.some.inj read)
        exact ⟨value, rfl, isScalar_word word⟩
      · obtain ⟨⟨value, _⟩, number, same⟩ := Option.map_eq_some_iff.mp read
        obtain ⟨rfl, -⟩ := Prod.mk.inj same
        unfold number? at number
        split at number <;> exact ⟨value, rfl, isScalar_magnitude number⟩

/-- A token that carries no value of its own. -/
theorem not_scalar_mark {c : Char} {t : Token} (mark : mark? c = some t) (value : Json) :
    t ≠ .scalar value := by
  unfold mark? at mark
  split at mark <;> cases mark <;> simp

/-- **The tokens of a text**, each with the place where it begins. -/
theorem mem_tokens {skip : ℕ} {cs : List Char} {ts : List Token}
    (read : tokensFrom? skip cs = some ts) :
    ∀ t ∈ ts, ∃ c ∈ cs, ∃ rest after, token? (c :: rest) = some (t, after) := by
  induction cs generalizing skip ts with
  | nil =>
    obtain rfl := Option.some.inj read
    exact List.forall_mem_nil _
  | cons c rest ih =>
    have later {skip : ℕ} {more : List Token} (read : tokensFrom? skip rest = some more) :
        ∀ t ∈ more, ∃ d ∈ c :: rest, ∃ rest after, token? (d :: rest) = some (t, after) := by
      intro t mem
      obtain ⟨d, inside, found⟩ := ih read t mem
      exact ⟨d, List.mem_cons_of_mem _ inside, found⟩
    cases skip with
    | succ skip => exact later read
    | zero =>
      rw [tokensFrom?] at read
      split at read
      · exact later read
      · split at read
        · cases read
        · rename_i t after first
          obtain ⟨more, others, rfl⟩ := Option.map_eq_some_iff.mp read
          exact List.forall_mem_cons.mpr ⟨⟨c, List.mem_cons_self, rest, after, first⟩, later others⟩

/-- A token whose value is well-formed. -/
def Token.IsWellFormed : Token → Prop
  | .scalar value => value.IsWellFormed
  | _ => True

theorem isWellFormed_tokens {skip : ℕ} {cs : List Char} {ts : List Token}
    (read : tokensFrom? skip cs = some ts) : ∀ t ∈ ts, t.IsWellFormed := by
  intro t mem
  obtain ⟨c, -, rest, after, first⟩ := mem_tokens read t mem
  rcases token?_cases first with mark | ⟨-, s, rfl⟩ | ⟨-, value, rfl, scalar⟩
  · cases t with
    | scalar value => exact absurd rfl (not_scalar_mark mark value)
    | _ => trivial
  · trivial
  · exact scalar.isWellFormed

/-! ## The reader -/

/-- What is being read is well-formed so far. -/
def Open.IsWellFormed : Open → Prop
  | .array items => ∀ item ∈ items, item.IsWellFormed
  | .object members => Members.IsWellFormed members
  | .member _ members => Members.IsWellFormed members

namespace Reader

/-- **A reader whose values are well-formed** so far. -/
structure IsWellFormed (r : Reader) : Prop where
  opened : ∀ o ∈ r.opened, o.IsWellFormed
  result : ∀ value ∈ r.result, value.IsWellFormed

variable {opened : List Open} {value : Json} {r s : Reader} {t : Token}

theorem isWellFormed_complete (new : value.IsWellFormed) (each : ∀ o ∈ opened, o.IsWellFormed)
    (done : complete value opened = some r) : r.IsWellFormed := by
  unfold complete at done
  split at done
  · obtain rfl := Option.some.inj done
    exact ⟨List.forall_mem_nil _, fun value mem => by rwa [← Option.some.inj mem]⟩
  · obtain rfl := Option.some.inj done
    obtain ⟨first, others⟩ := List.forall_mem_cons.mp each
    exact ⟨List.forall_mem_cons.mpr ⟨List.forall_mem_cons.mpr ⟨new, first⟩, others⟩, by simp⟩
  · obtain rfl := Option.some.inj done
    obtain ⟨first, others⟩ := List.forall_mem_cons.mp each
    exact ⟨List.forall_mem_cons.mpr ⟨Members.IsWellFormed.put first _ new, others⟩, by simp⟩
  · cases done

theorem isWellFormed_beginValue (token : t.IsWellFormed) (each : ∀ o ∈ opened, o.IsWellFormed)
    (done : beginValue opened t = some r) : r.IsWellFormed := by
  unfold beginValue at done
  split at done
  · obtain rfl := Option.some.inj done
    exact ⟨List.forall_mem_cons.mpr ⟨List.forall_mem_nil _, each⟩, by simp⟩
  · obtain rfl := Option.some.inj done
    exact ⟨List.forall_mem_cons.mpr ⟨Members.isWellFormed_nil, each⟩, by simp⟩
  · exact isWellFormed_complete (.string _) each done
  · exact isWellFormed_complete token each done
  · cases done

theorem isWellFormed_beginMember (each : ∀ o ∈ opened, o.IsWellFormed)
    (done : beginMember opened t = some r) : r.IsWellFormed := by
  unfold beginMember at done
  split at done
  · obtain rfl := Option.some.inj done
    obtain ⟨first, others⟩ := List.forall_mem_cons.mp each
    exact ⟨List.forall_mem_cons.mpr ⟨first, others⟩, by simp⟩
  · cases done

theorem isWellFormed_close (each : ∀ o ∈ opened, o.IsWellFormed)
    (done : close opened t = some r) : r.IsWellFormed := by
  unfold close at done
  split at done
  · obtain ⟨first, others⟩ := List.forall_mem_cons.mp each
    exact isWellFormed_complete (.array fun item mem => first item (List.mem_reverse.mp mem))
      others done
  · obtain ⟨first, others⟩ := List.forall_mem_cons.mp each
    exact isWellFormed_complete (Members.IsWellFormed.object first) others done
  · cases done

theorem isWellFormed_separate (each : ∀ o ∈ opened, o.IsWellFormed)
    (done : separate opened t = some r) : r.IsWellFormed := by
  unfold separate at done
  split at done
  · obtain rfl := Option.some.inj done
    exact ⟨each, by simp⟩
  · obtain rfl := Option.some.inj done
    exact ⟨each, by simp⟩
  · exact isWellFormed_close each done

/-- **One token keeps the values well-formed.** -/
theorem IsWellFormed.step (wf : r.IsWellFormed) (token : t.IsWellFormed)
    (done : r.step t = some s) : s.IsWellFormed := by
  unfold Reader.step at done
  split at done
  · exact isWellFormed_beginValue token wf.opened done
  · exact isWellFormed_close wf.opened done
  · exact isWellFormed_beginValue token wf.opened done
  · exact isWellFormed_close wf.opened done
  · exact isWellFormed_beginMember wf.opened done
  · exact isWellFormed_beginMember wf.opened done
  · obtain rfl := Option.some.inj done
    exact ⟨wf.opened, by simp⟩
  · cases done
  · exact isWellFormed_separate wf.opened done

/-- **Any number of tokens** keep the values well-formed. -/
theorem IsWellFormed.run {ts : List Token} (wf : r.IsWellFormed)
    (tokens : ∀ t ∈ ts, t.IsWellFormed) (done : ts.foldlM Reader.step r = some s) :
    s.IsWellFormed := by
  induction ts generalizing r with
  | nil =>
    obtain rfl := Option.some.inj done
    exact wf
  | cons t ts ih =>
    obtain ⟨first, others⟩ := List.forall_mem_cons.mp tokens
    rw [List.foldlM_cons] at done
    obtain ⟨next, here, more⟩ := Option.bind_eq_some_iff.mp done
    exact ih (wf.step first here) others more

end Reader

/-- **What is read is well-formed**, whatever the text is. -/
theorem isWellFormed_parse? {text : String} {value : Json} (read : parse? text = some value) :
    value.IsWellFormed := by
  obtain ⟨ts, tokens, read⟩ := Option.bind_eq_some_iff.mp read
  obtain ⟨last, run, result⟩ := Option.bind_eq_some_iff.mp read
  have begins : Reader.IsWellFormed ⟨.value, [], none⟩ := ⟨List.forall_mem_nil _, by simp⟩
  exact (begins.run (isWellFormed_tokens tokens) run).result value result

end ExactAlgebra.Json
