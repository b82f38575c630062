import CrossDialect.Proofs.Conditions.TruthValue
import CrossDialect.Statement.Basic

/-!
When a query cannot be built. A set of conditions fails on a nested set without a
conjunction, unless that stands inside a set that is left out for want of predicates. A
query fails on its sets of conditions, on rows that are skipped by number and have no
order, and on the queries in its tables. Nothing else fails, and there are two errors.
-/

namespace CrossDialect

theorem bind_eq_error {ε α β : Type} {x : Except ε α} {f : α → Except ε β} {e : ε} :
    (x >>= f) = .error e ↔ x = .error e ∨ ∃ a, x = .ok a ∧ f a = .error e := by
  cases x <;> simp [bind, Except.bind]

theorem pure_ne_error {ε α : Type} {a : α} {e : ε} : (pure a : Except ε α) ≠ .error e := by
  simp [pure, Except.pure]

namespace PredicateSet

/-- A nested set has no conjunction, or a nested set that holds a predicate has such a
set in it. -/
inductive Unbound : PredicateSet → Prop where
  | here {s c} : c ∈ s.children → c.conjunction = none → Unbound s
  | within {s c} : c ∈ s.children → c.atoms ≠ [] → Unbound c → Unbound s

mutual

theorem unbound_of_error {s : PredicateSet} {e : Error} (failed : s.layout = .error e) :
    s.Unbound ∧ e = .unboundConjunction := by
  cases s with
  | mk target predicates children conjunction pending =>
      simp only [layout, bind_eq_error, pure_ne_error, and_false, exists_false, or_false] at failed
      rcases childElements_error failed with ⟨c, member, kind, same⟩
      refine ⟨?_, same⟩
      rcases kind with missing | ⟨present, inner⟩
      · exact .here member missing
      · exact .within member present inner

theorem childElements_error {cs : List PredicateSet} {e : Error}
    (failed : childElements cs = .error e) :
    ∃ c ∈ cs, (c.conjunction = none ∨ c.atoms ≠ [] ∧ c.Unbound) ∧ e = .unboundConjunction := by
  cases cs with
  | nil => simp [childElements] at failed
  | cons c cs =>
      have later (failed : childElements cs = .error e) :
          ∃ c' ∈ c :: cs, (c'.conjunction = none ∨ c'.atoms ≠ [] ∧ c'.Unbound) ∧
            e = .unboundConjunction := by
        rcases childElements_error failed with ⟨c', member, kind⟩
        exact ⟨c', List.mem_cons_of_mem c member, kind⟩
      simp only [childElements] at failed
      split at failed
      · rename_i missing
        exact ⟨c, List.mem_cons_self, .inl missing, (Except.error.inj failed).symm⟩
      split at failed
      · exact later failed
      · rename_i kept
        have present : c.atoms ≠ [] := fun held => kept (c.isEmpty_iff.2 held)
        rcases bind_eq_error.1 failed with inner | ⟨l, _, rest⟩
        · rcases unbound_of_error inner with ⟨unbound, same⟩
          exact ⟨c, List.mem_cons_self, .inr ⟨present, unbound⟩, same⟩
        · rcases bind_eq_error.1 rest with failed | ⟨_, _, done⟩
          · exact later failed
          · exact absurd done pure_ne_error

end

theorem AllWellJoined.nested {cs : List PredicateSet} (joined : AllWellJoined cs) :
    ∀ c ∈ cs, c.conjunction ≠ none ∧ (c.atoms ≠ [] → c.WellJoined) := by
  induction cs with
  | nil => simp
  | cons c cs ih =>
      rcases joined with ⟨bound, inner, rest⟩
      intro c' member
      rcases List.mem_cons.1 member with rfl | later
      · refine ⟨Option.isSome_iff_ne_none.1 bound, ?_⟩
        intro present
        exact inner (Bool.eq_false_iff.2 fun empty => present (c'.isEmpty_iff.1 empty))
      · exact ih rest c' later

theorem Unbound.not_wellJoined {s : PredicateSet} (unbound : s.Unbound) : ¬ s.WellJoined := by
  induction unbound with
  | @here s c member missing =>
      intro joined
      cases s
      exact (AllWellJoined.nested joined c member).1 missing
  | @within s c member present _ ih =>
      intro joined
      cases s
      exact ih ((AllWellJoined.nested joined c member).2 present)

theorem Unbound.not_laid {s : PredicateSet} (unbound : s.Unbound) :
    ¬ ∃ l, s.layout = .ok l := by
  rw [layout_exists_iff]
  exact unbound.not_wellJoined

end PredicateSet

theorem Window.choose_eq_error {d : Dialect} {limit offset : Option UInt64} {ordered : Bool}
    {e : Error} :
    Window.choose d limit offset ordered = .error e ↔
      d = .sqlServer ∧ (∃ n, offset = some n ∧ 0 < n) ∧ ordered = false ∧
        e = .unsupported .sqlServer .offsetWithoutOrder := by
  have skips : (∃ n, offset = some n ∧ 0 < n) ↔ ∃ n, offset.filter (0 < ·) = some n := by
    simp [Option.filter_eq_some_iff]
  rw [skips]
  unfold choose
  cases offset.filter (0 < ·) <;> cases limit <;> cases ordered <;> cases d <;>
    simp [Dialect.profile, eq_comm]

namespace Select

inductive Faulty (d : Dialect) : Select → Prop where
  | filter {s} : s.filter.Unbound → Faulty d s
  | having {s} : s.having.Unbound → Faulty d s
  | on {s j} : j ∈ s.joins → j.on.Unbound → Faulty d s
  | unordered {s n} : d = .sqlServer → s.offset = some n → 0 < n → s.orderBy = [] → Faulty d s
  | source {s inner name} : s.source = some (.subquery inner name) → Faulty d inner → Faulty d s
  | table {s j inner name} : j ∈ s.joins → j.table = .subquery inner name → Faulty d inner →
      Faulty d s

def Refused (d : Dialect) (e : Error) : Prop :=
  e = .unboundConjunction ∨ d = .sqlServer ∧ e = .unsupported .sqlServer .offsetWithoutOrder

mutual

theorem faulty_of_error {d : Dialect} {s : Select} {e : Error} (failed : s.layout d = .error e) :
    s.Faulty d ∧ Refused d e := by
  cases s with
  | mk target distinct columns source joins filter groupBy having orderBy limit offset =>
      simp only [layout, conditions, bind_eq_error, pure_ne_error, and_false, exists_false,
        or_false] at failed
      rcases failed with
        unordered | ⟨_, _, source | ⟨_, _, joined | ⟨_, _, filter | ⟨_, _, having⟩⟩⟩⟩
      · rcases Window.choose_eq_error.1 unordered with ⟨server, ⟨n, skipped, positive⟩, order, same⟩
        exact ⟨.unordered server skipped positive (by simpa using order), .inr ⟨server, same⟩⟩
      · rcases sourceLayout_error source with ⟨inner, name, same, faulty, refused⟩
        exact ⟨.source same faulty, refused⟩
      · rcases joinsLayout_error joined with ⟨j, member, on | ⟨inner, name, same, faulty⟩, refused⟩
        · exact ⟨.on member on, refused⟩
        · exact ⟨.table member same faulty, refused⟩
      · rcases PredicateSet.unbound_of_error filter with ⟨unbound, same⟩
        exact ⟨.filter unbound, .inl same⟩
      · rcases PredicateSet.unbound_of_error having with ⟨unbound, same⟩
        exact ⟨.having unbound, .inl same⟩

theorem sourceLayout_error {d : Dialect} {source : Option (TableRef Select)} {e : Error}
    (failed : sourceLayout d source = .error e) :
    ∃ inner name, source = some (.subquery inner name) ∧ inner.Faulty d ∧ Refused d e := by
  cases source with
  | none => simp [sourceLayout] at failed
  | some table =>
      simp only [sourceLayout, bind_eq_error, pure_ne_error, and_false, exists_false,
        or_false] at failed
      rcases tableLayout_error failed with ⟨inner, name, rfl, faulty⟩
      exact ⟨inner, name, rfl, faulty⟩

theorem tableLayout_error {d : Dialect} {table : TableRef Select} {e : Error}
    (failed : tableLayout d table = .error e) :
    ∃ inner name, table = .subquery inner name ∧ inner.Faulty d ∧ Refused d e := by
  cases table with
  | named | aliased => simp [tableLayout] at failed
  | subquery inner name =>
      simp only [tableLayout, bind_eq_error, pure_ne_error, and_false, exists_false,
        or_false] at failed
      exact ⟨inner, name, rfl, faulty_of_error failed⟩

theorem joinsLayout_error {d : Dialect} {joins : List (Join Select)} {e : Error}
    (failed : joinsLayout d joins = .error e) :
    ∃ j ∈ joins, (j.on.Unbound ∨ ∃ inner name, j.table = .subquery inner name ∧ inner.Faulty d) ∧
      Refused d e := by
  cases joins with
  | nil => simp [joinsLayout] at failed
  | cons j js =>
      simp only [joinsLayout, bind_eq_error, pure_ne_error, and_false, exists_false,
        or_false] at failed
      rcases failed with first | ⟨_, _, later⟩
      · exact ⟨j, List.mem_cons_self, joinLayout_error first⟩
      · rcases joinsLayout_error later with ⟨j', member, kind⟩
        exact ⟨j', List.mem_cons_of_mem j member, kind⟩

theorem joinLayout_error {d : Dialect} {j : Join Select} {e : Error}
    (failed : joinLayout d j = .error e) :
    (j.on.Unbound ∨ ∃ inner name, j.table = .subquery inner name ∧ inner.Faulty d) ∧
      Refused d e := by
  cases j with
  | mk kind table on =>
      simp only [joinLayout, bind_eq_error, pure_ne_error, and_false, exists_false,
        or_false] at failed
      rcases failed with table | ⟨_, _, on⟩
      · rcases tableLayout_error table with ⟨inner, name, same, faulty, refused⟩
        exact ⟨.inr ⟨inner, name, same, faulty⟩, refused⟩
      · rcases PredicateSet.unbound_of_error on with ⟨unbound, same⟩
        exact ⟨.inl unbound, .inl same⟩

end

structure PartsLaid (d : Dialect) (s : Select) : Prop where
  window : ∃ w, s.window d = .ok w
  source : ∃ l, sourceLayout d s.source = .ok l
  tables : ∀ j ∈ s.joins, ∃ l, tableLayout d j.table = .ok l
  on : ∀ j ∈ s.joins, ∃ l, j.on.layout = .ok l
  filter : ∃ l, s.filter.layout = .ok l
  having : ∃ l, s.having.layout = .ok l

theorem joinLayout_ok {d : Dialect} {j : Join Select} {l : Layout}
    (laid : joinLayout d j = .ok l) :
    (∃ l, tableLayout d j.table = .ok l) ∧ ∃ l, j.on.layout = .ok l := by
  cases j with
  | mk kind table on =>
      simp only [joinLayout, bind_eq_ok] at laid
      rcases laid with ⟨table, tabled, on, told, _⟩
      exact ⟨⟨table, tabled⟩, on, told⟩

theorem joinsLayout_ok {d : Dialect} {joins : List (Join Select)} {l : Layout}
    (laid : joinsLayout d joins = .ok l) :
    ∀ j ∈ joins, (∃ l, tableLayout d j.table = .ok l) ∧ ∃ l, j.on.layout = .ok l := by
  induction joins generalizing l with
  | nil => simp
  | cons j js ih =>
      simp only [joinsLayout, bind_eq_ok] at laid
      rcases laid with ⟨_, first, _, others, _⟩
      intro j' member
      rcases List.mem_cons.1 member with rfl | later
      · exact joinLayout_ok first
      · exact ih others j' later

theorem partsLaid_of_layout {d : Dialect} {s : Select} {l : Layout} (laid : s.layout d = .ok l) :
    s.PartsLaid d := by
  rcases layout_eq_ok.1 laid with ⟨window, chosen, _, told, _⟩
  rcases body_eq_ok.1 told with ⟨source, sourced, joins, joined, _, conditions, _⟩
  rcases conditions_eq_ok.1 conditions with ⟨filter, filtered, having, had, _⟩
  exact
    { window := ⟨window, chosen⟩
      source := ⟨source, sourced⟩
      tables := fun j member => (joinsLayout_ok joined j member).1
      on := fun j member => (joinsLayout_ok joined j member).2
      filter := ⟨filter, filtered⟩
      having := ⟨having, had⟩ }

theorem tableLayout_subquery_ok {d : Dialect} {inner : Select} {name : String} {l : Layout}
    (laid : tableLayout d (.subquery inner name) = .ok l) : ∃ l, inner.layout d = .ok l := by
  simp only [tableLayout, bind_eq_ok] at laid
  rcases laid with ⟨l, laid, _⟩
  exact ⟨l, laid⟩

theorem Faulty.not_partsLaid {d : Dialect} {s : Select} (faulty : s.Faulty d) :
    ¬ s.PartsLaid d := by
  induction faulty with
  | filter unbound => exact fun parts => unbound.not_laid parts.filter
  | having unbound => exact fun parts => unbound.not_laid parts.having
  | on member unbound => exact fun parts => unbound.not_laid (parts.on _ member)
  | @unordered s n server skipped positive order =>
      intro parts
      rcases parts.window with ⟨w, chosen⟩
      have failed : s.window d = .error (.unsupported .sqlServer .offsetWithoutOrder) :=
        Window.choose_eq_error.2 ⟨server, ⟨n, skipped, positive⟩, by simp [order], rfl⟩
      exact absurd (chosen.symm.trans failed) (by simp)
  | source same _ ih =>
      intro parts
      rcases parts.source with ⟨l, laid⟩
      rw [same] at laid
      simp only [sourceLayout, bind_eq_ok] at laid
      rcases laid with ⟨table, laid, _⟩
      rcases tableLayout_subquery_ok laid with ⟨l, inner⟩
      exact ih (partsLaid_of_layout inner)
  | table member same _ ih =>
      intro parts
      rcases parts.tables _ member with ⟨l, laid⟩
      rw [same] at laid
      rcases tableLayout_subquery_ok laid with ⟨l, inner⟩
      exact ih (partsLaid_of_layout inner)

theorem faulty_iff {d : Dialect} (s : Select) : s.Faulty d ↔ ∃ e, s.layout d = .error e := by
  constructor
  · intro faulty
    cases laid : s.layout d with
    | ok l => exact absurd (partsLaid_of_layout laid) faulty.not_partsLaid
    | error e => exact ⟨e, rfl⟩
  · rintro ⟨e, failed⟩
    exact (faulty_of_error failed).1

end Select

theorem Statement.buildFor_eq_error {s : Statement} {t : Target} {e : Error} :
    s.buildFor t = .error e ↔ s.layout t.dialect = .error e := by
  unfold buildFor
  cases s.layout t.dialect <;> simp [Except.map]

/-- A query cannot be built for a target exactly if one of its sets of conditions is
unbound, it skips rows on SQL Server and has no order, or a query in one of its tables
has such a fault under the same dialect. No other errors come up than the two for these. -/
theorem query_fails_iff_faulty (t : Target) (s : Select) :
    ((∃ e, (Statement.select s).buildFor t = .error e) ↔ s.Faulty t.dialect) ∧
      ∀ e, (Statement.select s).buildFor t = .error e → Select.Refused t.dialect e := by
  constructor
  · rw [Select.faulty_iff]
    exact exists_congr fun _ => Statement.buildFor_eq_error
  · intro e failed
    exact (Select.faulty_of_error (Statement.buildFor_eq_error.1 failed)).2

def innerPage : Select :=
  let t := Target.ofDialect .mysql
  { target := t
    source := some
      (.subquery { target := t, source := some (.named "loans"), offset := some 10 } "l")
    filter :=
      { target := t
        predicates := [.gt "days" (.int 30)]
        children := [{ target := t, children := [{ target := t }], conjunction := some .or }] } }

/-- The page inside has no order, which only SQL Server asks for. -/
theorem query_fails_iff_faulty_inner :
    (innerPage.Faulty .sqlServer ∧
      ∃ e, (Statement.select innerPage).buildFor (.ofDialect .sqlServer) = .error e ∧
        Select.Refused .sqlServer e) ∧
    ¬ innerPage.Faulty .mysql ∧
      ∃ b, (Statement.select innerPage).buildFor (.ofDialect .mysql) = .ok b := by
  rcases query_fails_iff_faulty (.ofDialect .sqlServer) innerPage with ⟨fails, refused⟩
  have faulty : innerPage.Faulty .sqlServer := .source rfl (.unordered rfl rfl (by decide) rfl)
  rcases fails.2 faulty with ⟨e, failed⟩
  have built : (Statement.select innerPage).buildFor (.ofDialect .mysql) = .ok _ := rfl
  refine ⟨⟨faulty, e, failed, refused e failed⟩, ?_, _, built⟩
  intro faulty
  rcases (query_fails_iff_faulty (.ofDialect .mysql) innerPage).1.2 faulty with ⟨e, failed⟩
  cases built.symm.trans failed

end CrossDialect
