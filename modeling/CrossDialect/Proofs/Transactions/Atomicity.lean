import CrossDialect.Proofs.Transactions.Blocks
import CrossDialect.Proofs.Transactions.Savepoints

/-!
Blocks on a database where a statement that fails changes nothing. A block adds its work
on top of the work it found, and its savepoints on top of those it found, and leaves
everything below alone. So the work of a whole tree is the work that its journal keeps.
-/

namespace CrossDialect

/-- A connection to a database that a failed statement leaves as it was. -/
def Server.steady (t : Target) (faults : Nat → Option Error) : Connection Server :=
  .ofBatch t
    (fun sql s =>
      match batch t.dialect faults sql s with
      | (.ok _, after) => (.ok (), after)
      | (.error e, after) => (.error e, { after with db := s.db }))
    (execute faults)

theorem Server.steady_allowed (t : Target) (faults : Nat → Option Error) (c : Channel Server)
    (k : Control) {sql : String} {db : Database}
    (same : c.connection = steady t faults) (written : k.sql? t.dialect = some sql)
    (allowed : c.backend.db.obey c.backend.sent.length k = some db) :
    let sent := c.backend.sent ++ [.control sql]
    c.control k = (.ok (), { c with backend := { db, sent } }) ∨
      ∃ e, c.control k = (.error e, { c with backend := { c.backend with sent } }) := by
  have understood : batch t.dialect faults sql c.backend = c.backend.command faults k sql := by
    simp [batch, Control.read?_sql written]
  cases fault : faults c.backend.sent.length with
  | some e =>
      right
      exact ⟨e, by simp [Channel.control, same, steady, Connection.ofBatch, written, understood,
        command, fault]⟩
  | none =>
      left
      simp [Channel.control, same, steady, Connection.ofBatch, written, understood, command, fault,
        allowed]

theorem Manager.leave_inner {σ : Type} (stem : String) (sequence : Nat) (name : String)
    (names : List String) (outcome : Outcome) (c : Channel σ) :
    leave ⟨stem, names.length + 1 + 1, (name :: names).reverse, sequence⟩ outcome c =
      let left := (c.report (.savepointLeft (names.length + 1) name outcome)).control <|
        match outcome with
        | .keep => .release name
        | .discard => .rollbackTo name
      (left.1, ⟨stem, names.length + 1, names.reverse, sequence⟩, left.2) := by
  cases outcome <;> simp [leave]

/-- An adapter with its manager in a transaction of the database, and the savepoints of
the inner levels under these names. -/
inductive Within (t : Target) (faults : Nat → Option Error) (permanent : List Work)
    (names : List String) (session : OpenWork) : Adapter Server → Prop where
  | mk {stem : String} {sequence : Nat} (config : Config) (sent : List Sent)
      (events : List Event) (numbered : Numbered stem sequence session.marks) :
      Within t faults permanent names session
        { channel := ⟨Server.steady t faults, ⟨⟨permanent, some session⟩, sent⟩, events⟩
          config
          manager := some ⟨stem, names.length + 1, names.reverse, sequence⟩ }

namespace Within

variable {t : Target} {faults : Nat → Option Error} {permanent done : List Work}
  {names : List String} {marks newer older : List Mark} {mark : Mark}
  {a : Adapter Server}

theorem report (inside : Within t faults permanent names ⟨done, marks⟩ a) (e : Event) :
    Within t faults permanent names ⟨done, marks⟩ { a with channel := a.channel.report e } := by
  rcases inside with ⟨config, sent, events, numbered⟩
  exact .mk config sent (events ++ [e]) numbered

theorem executeDirect (inside : Within t faults permanent names ⟨done, marks⟩ a)
    (built : Built) :
    let ran := Adapter.executeDirect (.ok built) a
    (∃ n, ran.1 = .ok n) ∧
      Within t faults permanent names ⟨done ++ [⟨built.sql, built.params⟩], marks⟩ ran.2 ∨
    (∃ e, ran.1 = .error e) ∧ Within t faults permanent names ⟨done, marks⟩ ran.2 := by
  rcases inside with ⟨config, sent, events, numbered⟩
  simp only [Adapter.executeDirect, Channel.execute, Server.steady, Connection.ofBatch,
    Server.execute]
  cases faults sent.length with
  | some e => exact .inr ⟨⟨e, rfl⟩, .mk config _ events numbered⟩
  | none => exact .inl ⟨⟨1, rfl⟩, .mk config _ events numbered⟩

theorem execute (inside : Within t faults permanent names ⟨done, marks⟩ a)
    (statement : Except Error Built) :
    let ran := Adapter.execute statement a
    (∃ built n, statement = .ok built ∧ ran.1 = .ok n ∧
      Within t faults permanent names ⟨done ++ [⟨built.sql, built.params⟩], marks⟩ ran.2) ∨
    (∃ e, ran.1 = .error e) ∧ Within t faults permanent names ⟨done, marks⟩ ran.2 := by
  cases statement with
  | error e => exact .inr ⟨⟨e, rfl⟩, inside⟩
  | ok built =>
      have carried {a : Adapter Server} (inside : Within t faults permanent names ⟨done, marks⟩ a)
          := inside.executeDirect built
      simp only [Adapter.execute]
      split
      · rcases carried (inside.report _) with ⟨⟨n, ok⟩, more⟩ | failed
        · exact .inl ⟨built, n, rfl, ok, more⟩
        · exact .inr failed
      · rcases carried inside with ⟨⟨n, ok⟩, more⟩ | failed
        · exact .inl ⟨built, n, rfl, ok, more⟩
        · exact .inr failed

theorem begin (inside : Within t faults permanent names ⟨done, marks⟩ a) :
    (∃ e, a.begin.1 = .error e) ∧ Within t faults permanent names ⟨done, marks⟩ a.begin.2 ∨
    a.begin.1 = .ok () ∧ ∃ mark, mark.height = done.length ∧
      Within t faults permanent (mark.name :: names) ⟨done, mark :: marks⟩ a.begin.2 := by
  rcases inside with @⟨stem, sequence, config, sent, events, numbered⟩
  have inner : ¬ names.length + 1 = 0 := Nat.succ_ne_zero _
  let name := stem ++ "_" ++ Nat.repr (sequence + 1)
  have answer := Server.steady_allowed t faults
    ⟨Server.steady t faults, ⟨⟨permanent, some ⟨done, marks⟩⟩, sent⟩, events⟩
    (.savepoint name) rfl rfl rfl
  rcases answer with ok | ⟨e, failed⟩
  · right
    simp only [Adapter.begin, Adapter.ensureManager, Option.getD_some, Manager.enter, inner,
      ↓reduceIte, Manager.savepointName, ok, name]
    let mark : Mark := ⟨stem ++ "_" ++ Nat.repr (sequence + 1), done.length, sent.length⟩
    refine ⟨trivial, mark, rfl, ?_⟩
    have deeper : Within t faults permanent (mark.name :: names) ⟨done, mark :: marks⟩ _ :=
      .mk config (sent ++ [.control (t.dialect.profile.transaction.savepoint ++ " " ++ name)])
        (events ++ [.savepointSet (names.length + 1 + 1) name])
        (numbered.cons done.length sent.length)
    rw [List.reverse_cons] at deeper
    exact deeper
  · left
    simp only [Adapter.begin, Adapter.ensureManager, Option.getD_some, Manager.enter, inner,
      ↓reduceIte, Manager.savepointName, failed, name]
    exact ⟨⟨e, rfl⟩, .mk config _ events numbered.later⟩

theorem commit
    (inside : Within t faults permanent (mark.name :: names) ⟨done, newer ++ mark :: older⟩ a) :
    ∃ left, Within t faults permanent names ⟨done, left ++ older⟩ a.commit.2 := by
  rcases inside with @⟨stem, sequence, config, sent, events, numbered⟩
  have found := OpenWork.downTo_own numbered done
  let c : Channel Server := ⟨Server.steady t faults,
    ⟨⟨permanent, some ⟨done, newer ++ mark :: older⟩⟩, sent⟩,
    events ++ [.savepointLeft (names.length + 1) mark.name .keep]⟩
  have kept : Numbered stem sequence older := numbered.sublist (by simp)
  have whole : newer ++ mark :: older = (newer ++ [mark]) ++ older := by simp
  cases written : Control.sql? t.dialect (.release mark.name) with
  | none =>
      have silent : c.control (.release mark.name) = (.ok (), c) := by
        simp [Channel.control, c, Server.steady, Connection.ofBatch, written]
      simp only [Adapter.commit, Adapter.leave, List.length_cons, Manager.leave_inner,
        Channel.report, silent, c]
      refine ⟨newer ++ [mark], ?_⟩
      rw [← whole]
      exact .mk config sent _ numbered
  | some sql =>
      have allowed : c.backend.db.obey sent.length (.release mark.name) =
          some ⟨permanent, some ⟨done, older⟩⟩ := by
        simp [c, Database.obey, OpenWork.release, found]
      rcases Server.steady_allowed t faults c _ rfl written allowed with ok | ⟨e, failed⟩
      · simp only [Adapter.commit, Adapter.leave, List.length_cons,
          Manager.leave_inner, Channel.report, ok, c]
        exact ⟨[], .mk config _ _ kept⟩
      · simp only [Adapter.commit, Adapter.leave, List.length_cons,
          Manager.leave_inner, Channel.report, failed, c]
        refine ⟨newer ++ [mark], ?_⟩
        rw [← whole]
        exact .mk config _ _ numbered

theorem rollback
    (inside : Within t faults permanent (mark.name :: names) ⟨done, newer ++ mark :: older⟩ a) :
    a.rollback.1 = .ok () ∧
      Within t faults permanent names ⟨done.take mark.height, mark :: older⟩ a.rollback.2 ∨
    (∃ e, a.rollback.1 = .error e) ∧
      Within t faults permanent names ⟨done, newer ++ mark :: older⟩ a.rollback.2 := by
  rcases inside with @⟨stem, sequence, config, sent, events, numbered⟩
  have found := OpenWork.downTo_own numbered done
  let c : Channel Server := ⟨Server.steady t faults,
    ⟨⟨permanent, some ⟨done, newer ++ mark :: older⟩⟩, sent⟩,
    events ++ [.savepointLeft (names.length + 1) mark.name .discard]⟩
  have allowed : c.backend.db.obey sent.length (.rollbackTo mark.name) =
      some ⟨permanent, some ⟨done.take mark.height, mark :: older⟩⟩ := by
    simp [c, Database.obey, OpenWork.rollbackTo, found]
  have kept : Numbered stem sequence (mark :: older) := numbered.sublist (by simp)
  rcases Server.steady_allowed t faults c (.rollbackTo mark.name) rfl rfl allowed with
    ok | ⟨e, failed⟩
  · left
    simp only [Adapter.rollback, Adapter.leave, List.length_cons, Manager.leave_inner,
      Channel.report, ok, c]
    exact ⟨trivial, .mk config _ _ kept⟩
  · right
    simp only [Adapter.rollback, Adapter.leave, List.length_cons, Manager.leave_inner,
      Channel.report, failed, c]
    exact ⟨⟨e, rfl⟩, .mk config _ _ numbered⟩

/-- A block adds to the work what it leaves of the work of its body, and nothing else. -/
theorem block {α : Type} {body : Session Server α} {ending : Ending α} {b : Adapter Server}
    {work : List Work} (inside : Within t faults permanent names ⟨done, marks⟩ a)
    (played : Adapter.Played body a ending b)
    (ran : ∀ {name : String} {marks : List Mark}, a.begin.1 = .ok () →
      Within t faults permanent (name :: names) ⟨done, marks⟩ a.begin.2 →
      ∃ newer, Within t faults permanent (name :: names) ⟨done ++ work, newer ++ marks⟩
        (body a.begin.2).2) :
    ∃ newer, Within t faults permanent names
      ⟨done ++ (if ending.stays then work else []), newer ++ marks⟩ b := by
  rcases inside.begin with ⟨⟨e, failed⟩, same⟩ | ⟨ok, mark, height, deeper⟩
  · obtain ⟨rfl, rfl⟩ := played.of_refused failed
    exact ⟨[], by simpa [Ending.stays] using same⟩
  rcases ran ok deeper with ⟨newer, after⟩
  cases played with
  | refused entered =>
      rw [entered] at ok
      cases ok
  | kept entered body left =>
      rw [entered, body] at after
      have done := after.commit
      rwa [left] at done
  | unkept entered body left =>
      rw [entered, body] at after
      have done := after.commit
      rwa [left] at done
  | undone entered body left =>
      rw [entered, body] at after
      have back : (done ++ work).take mark.height = done := by simp [height]
      rcases after.rollback with ⟨_, restored⟩ | ⟨⟨e, failed⟩, _⟩
      · rw [left, back] at restored
        exact ⟨[mark], by simpa [Ending.stays] using restored⟩
      · rw [left] at failed
        cases failed
  | stuck entered body left =>
      rw [entered, body] at after
      rcases after.rollback with ⟨ok', _⟩ | ⟨_, staying⟩
      · rw [left] at ok'
        cases ok'
      · rw [left] at staying
        exact ⟨newer ++ [mark], by simpa [Ending.stays] using staying⟩

/-- Running a body adds the work that its journal keeps, on whatever levels it runs. -/
theorem run {α : Type} (body : Body α)
    (inside : Within t faults permanent names ⟨done, marks⟩ a) :
    ∃ newer, Within t faults permanent names
      ⟨done ++ Carried.remaining (body.journal a), newer ++ marks⟩ (body.run a).2 := by
  induction body generalizing names done marks a with
  | finish result => exact ⟨[], by simpa [Body.journal, Body.run] using inside⟩
  | execute statement next ih =>
      simp only [Body.journal, Body.run]
      rcases inside.execute statement with ⟨built, n, rfl, ok, more⟩ | ⟨⟨e, failed⟩, same⟩
      · rcases ih _ more with ⟨newer, after⟩
        refine ⟨newer, ?_⟩
        simpa [ok] using after
      · rcases ih _ same with ⟨newer, after⟩
        refine ⟨newer, ?_⟩
        cases statement <;> simpa [failed] using after
  | block inner next ihInner ihNext =>
      rcases Adapter.transaction_played inner.run a with ⟨b, result, played⟩
      have ran {name : String} {marks : List Mark} (entered : a.begin.1 = .ok ())
          (deeper : Within t faults permanent (name :: names) ⟨done, marks⟩ a.begin.2) :
          ∃ newer, Within t faults permanent (name :: names)
            ⟨done ++ Carried.remaining (a.entered inner.journal), newer ++ marks⟩
            (inner.run a.begin.2).2 := by
        rw [Adapter.entered_ok entered]
        exact ihInner deeper
      rcases inside.block played ran with ⟨newer, left⟩
      rcases ihNext (Adapter.ending inner.run a).result left with ⟨more, after⟩
      refine ⟨more ++ newer, ?_⟩
      simpa [Body.journal, Body.run, result, Carried.remaining_inside] using after

theorem commit_outermost (inside : Within t faults permanent [] ⟨done, marks⟩ a) :
    a.commit.1 = .ok () ∧ a.commit.2.channel.backend.db.permanent = permanent ++ done ∨
    (∃ e, a.commit.1 = .error e) ∧ a.commit.2.channel.backend.db.permanent = permanent := by
  rcases inside with @⟨stem, sequence, config, sent, events, _⟩
  have answer := Server.steady_allowed t faults
    ⟨Server.steady t faults, ⟨⟨permanent, some ⟨done, marks⟩⟩, sent⟩, events ++ [.ended .keep]⟩
    .commit rfl rfl rfl
  simp only [Adapter.commit, Adapter.leave, Manager.leave, Channel.report, List.length_nil]
  rcases answer with ok | ⟨e, failed⟩
  · left
    simp [ok]
  · right
    simp [failed]

theorem rollback_outermost (inside : Within t faults permanent [] ⟨done, marks⟩ a) :
    a.rollback.2.channel.backend.db.permanent = permanent := by
  rcases inside with @⟨stem, sequence, config, sent, events, _⟩
  have answer := Server.steady_allowed t faults
    ⟨Server.steady t faults, ⟨⟨permanent, some ⟨done, marks⟩⟩, sent⟩, events ++ [.ended .discard]⟩
    .rollback rfl rfl rfl
  simp only [Adapter.rollback, Adapter.leave, Manager.leave, Channel.report, List.length_nil]
  rcases answer with ok | ⟨e, failed⟩
  · simp [ok]
  · simp [failed]

end Within

namespace Adapter

structure AtRest (t : Target) (faults : Nat → Option Error) (a : Adapter Server) : Prop where
  connection : a.channel.connection = Server.steady t faults
  idle : a.channel.backend.db.session = none
  closed : ∀ m ∈ a.manager, m.depth = 0 ∧ m.savepoints = []

variable {t : Target} {faults : Nat → Option Error} {a : Adapter Server} {α : Type}

theorem AtRest.begin (rest : a.AtRest t faults) :
    (∃ e, a.begin.1 = .error e) ∧
      a.begin.2.channel.backend.db.permanent = a.channel.backend.db.permanent ∨
    a.begin.1 = .ok () ∧
      Within t faults a.channel.backend.db.permanent [] ⟨[], []⟩ a.begin.2 := by
  rcases a with ⟨⟨connection, ⟨⟨permanent, session⟩, sent⟩, events⟩, config, manager⟩
  rcases rest with ⟨rfl, rfl, closed⟩
  have answer := Server.steady_allowed t faults
    ⟨Server.steady t faults, ⟨{ permanent }, sent⟩, events⟩ .begin rfl rfl rfl
  have fresh : (manager.getD (.withStem config.savepointStem)).depth = 0 ∧
      (manager.getD (.withStem config.savepointStem)).savepoints = [] := by
    cases manager with
    | none => exact ⟨rfl, rfl⟩
    | some m => exact closed m rfl
  rcases made : manager.getD (.withStem config.savepointStem) with
    ⟨stem, depth, savepoints, sequence⟩
  rw [made] at fresh
  rcases fresh with ⟨rfl, rfl⟩
  rcases answer with ok | ⟨e, failed⟩
  · right
    simp only [Adapter.begin, ensureManager, made, Manager.enter, ↓reduceIte, ok]
    exact ⟨trivial, .mk config _ _ .nil⟩
  · left
    simp [Adapter.begin, ensureManager, made, Manager.enter, failed]

def opened (t : Target) (faults : Nat → Option Error) : Adapter Server where
  channel := { connection := Server.steady t faults, backend := {} }

theorem opened_atRest (t : Target) (faults : Nat → Option Error) :
    (opened t faults).AtRest t faults :=
  ⟨rfl, rfl, by simp [opened]⟩

/-- What an outermost block makes permanent is what its journal keeps, if its commit
succeeds, and nothing otherwise. -/
theorem AtRest.transaction (rest : a.AtRest t faults) (body : Body α) :
    (transaction body.run a).2.channel.backend.db.permanent =
      a.channel.backend.db.permanent ++
        match (transaction body.run a).1 with
        | .ok _ => Carried.remaining (a.entered body.journal)
        | .error _ => [] := by
  rcases transaction_played body.run a with ⟨b, result, played⟩
  rw [result]
  generalize ending body.run a = ended at played ⊢
  rcases rest.begin with ⟨⟨e, failed⟩, same⟩ | ⟨ok, outermost⟩
  · obtain ⟨rfl, rfl⟩ := played.of_refused failed
    simpa [Ending.result] using same
  rw [entered_ok ok]
  rcases outermost.run body with ⟨newer, after⟩
  cases played with
  | refused entered =>
      rw [entered] at ok
      cases ok
  | kept entered ran left =>
      rw [entered] at after ⊢
      rw [ran] at after
      rcases after.commit_outermost with ⟨_, done⟩ | ⟨⟨e, failed⟩, _⟩
      · rw [left] at done
        simpa [Ending.result] using done
      · rw [left] at failed
        cases failed
  | unkept entered ran left =>
      rw [entered, ran] at after
      rcases after.commit_outermost with ⟨done, _⟩ | ⟨_, same⟩
      · rw [left] at done
        cases done
      · rw [left] at same
        simpa [Ending.result] using same
  | undone entered ran left | stuck entered ran left =>
      rw [entered, ran] at after
      have same := after.rollback_outermost
      rw [left] at same
      simpa [Ending.result] using same

end Adapter

def Body.lasting {σ α : Type} (tree : Body α) (a : Adapter σ) : List (Carried α) :=
  match (tree.run a).1 with
  | .ok _ => (tree.journal a).filter Carried.stays
  | .error _ => []

variable {α : Type} {t : Target} {faults : Nat → Option Error} {a : Adapter Server}

theorem Adapter.AtRest.run (rest : a.AtRest t faults) (body : Body α) :
    let tree := Body.block body .finish
    (tree.run a).2.channel.backend.db.permanent =
      a.channel.backend.db.permanent ++ (tree.lasting a).map Carried.work := by
  intro tree
  have whole : tree.run a = Adapter.transaction body.run a := rfl
  have told : tree.journal a =
      (a.entered body.journal).map (Carried.inside (Adapter.ending body.run a)) := by
    simp [tree, Body.journal]
  rcases Adapter.transaction_played body.run a with ⟨b, result, _⟩
  have lasts := rest.transaction body
  rw [result] at lasts
  rw [Body.lasting, whole, told, result]
  cases ok : (Adapter.ending body.run a).result with
  | error e => simpa [ok] using lasts
  | ok x =>
      have kept : Carried.remaining (tree.journal a) =
          Carried.remaining (a.entered body.journal) := by
        rw [told, Carried.remaining_inside, Ending.stays_of_ok ok, if_pos rfl]
      rw [told] at kept
      rw [ok] at lasts
      exact lasts.trans (congrArg _ kept.symm)

/-- Work that lasts was carried out in no block that failed without telling of its
rollback, except where the body succeeded and the level could not be kept. -/
theorem failed_blocks_leave_no_work (rest : a.AtRest t faults) (body : Body α) :
    let tree := Body.block body .finish
    (tree.run a).2.channel.backend.db.permanent =
        a.channel.backend.db.permanent ++ (tree.lasting a).map Carried.work ∧
      ∀ c ∈ tree.lasting a, ∀ ending ∈ c.around, ending.FailedQuietly →
        ∃ e, ending = .unkept e := by
  intro tree
  refine ⟨rest.run body, ?_⟩
  intro c member ending around quiet
  have found : c ∈ (tree.journal a).filter Carried.stays := by
    unfold Body.lasting at member
    split at member
    · exact member
    · cases member
  have stays := List.all_eq_true.1 (List.mem_filter.1 found).2 ending around
  exact Ending.unkept_of_stays stays quiet

theorem failed_blocks_leave_no_work_audit :
    let a := Adapter.opened (.ofDialect .postgres) fun _ => none
    let audit : Body Unit := .execute (.ok ⟨"INSERT INTO audit VALUES (1)", []⟩) fun _ =>
      .finish (.error (.other "audit is off"))
    let order : Body Unit := .execute (.ok ⟨"INSERT INTO orders VALUES (1)", []⟩) fun _ =>
      .block audit fun _ => .finish (.ok ())
    let tree := Body.block order .finish
    a.AtRest (.ofDialect .postgres) (fun _ => none) ∧
      (tree.run a).2.channel.backend.db.permanent.map Work.sql =
        ["INSERT INTO orders VALUES (1)"] ∧
      ∀ c ∈ tree.lasting a, ∀ ending ∈ c.around, ending.FailedQuietly →
        ∃ e, ending = .unkept e := by
  intro a audit order tree
  have rest : a.AtRest (.ofDialect .postgres) (fun _ => none) := Adapter.opened_atRest _ _
  rcases failed_blocks_leave_no_work rest order with ⟨permanent, others⟩
  have kept : (tree.lasting a).map (Work.sql ∘ Carried.work) =
      ["INSERT INTO orders VALUES (1)"] := by
    decide +kernel
  refine ⟨rest, ?_, others⟩
  rw [permanent, List.map_append, List.map_map, kept]
  rfl

/-- The savepoint of an inner block cannot be released: the block fails, nothing is rolled
back, and the outer block commits. -/
theorem unreleased_block_keeps_work :
    let refused number := if number = 3 then some (Error.connection "refused") else none
    let a := Adapter.opened (.ofDialect .postgres) refused
    let audit : Body Unit := .execute (.ok ⟨"INSERT INTO audit VALUES (1)", []⟩) fun _ =>
      .finish (.ok ())
    let tree : Body Unit := .block (.block audit fun _ => .finish (.ok ())) .finish
    (tree.run a).2.channel.backend.db.permanent.map Work.sql =
        ["INSERT INTO audit VALUES (1)"] ∧
      ∃ c ∈ tree.lasting a, ∃ ending ∈ c.around, ending.FailedQuietly := by
  decide +kernel

end CrossDialect
