/-!
# Operations that may fail

An operation is a sequence of steps, any of which may fail and end it.  It
succeeds exactly when every step does, and then its result is that of the last;
a run over a list succeeds when it succeeds at every element.
-/

namespace MessageBroker

section

variable {error first second : Type}

@[simp]
theorem ok_bind
    (found : first)
    (next : first → Except error second) :
    (Except.ok found >>= next) = next found :=
  rfl

theorem eq_ok_of_toOption
    {attempt : Except error first}
    {found : first}
    (succeeds : attempt.toOption = some found) :
    attempt = .ok found := by
  cases attempt with
  | error fault => cases succeeds
  | ok other =>
      cases succeeds
      rfl

theorem bind_eq_ok_iff
    {attempt : Except error first}
    {next : first → Except error second}
    {result : second} :
    (attempt >>= next) = .ok result ↔
      ∃ found, attempt = .ok found ∧ next found = .ok result := by
  cases attempt with
  | error fault =>
      constructor
      · intro done
        cases done
      · rintro ⟨_, ⟨⟩, _⟩
  | ok found =>
      constructor
      · exact fun done => ⟨found, rfl, done⟩
      · rintro ⟨_, ⟨⟩, done⟩
        exact done

/-- A sequence of two fails only in ways in which one of the two does. -/
theorem bind_ne_error
    {attempt : Except error first}
    {next : first → Except error second}
    {fault : error}
    (here : attempt ≠ .error fault)
    (later : ∀ found, attempt = .ok found → next found ≠ .error fault) :
    (attempt >>= next) ≠ .error fault := by
  cases attempt with
  | error reason => simpa [bind, Except.bind] using here
  | ok found => exact later found rfl

theorem map_eq_ok_iff
    {attempt : Except error first}
    {change : first → second}
    {result : second} :
    attempt.map change = .ok result ↔
      ∃ found, attempt = .ok found ∧ change found = result := by
  cases attempt <;> simp [Except.map]

theorem mapError_eq_ok_iff
    {attempt : Except error first}
    {change : error → second}
    {found : first} :
    attempt.mapError change = .ok found ↔ attempt = .ok found := by
  cases attempt with
  | error reason => exact ⟨nofun, nofun⟩
  | ok other =>
      constructor
      · rintro ⟨⟩
        rfl
      · rintro ⟨⟩
        rfl

theorem mapError_ne_error
    {attempt : Except error first}
    {change : error → second}
    {fault : second}
    (others : ∀ reason, change reason ≠ fault) :
    attempt.mapError change ≠ .error fault := by
  cases attempt with
  | error reason => exact fun same => others reason (Except.error.inj same)
  | ok found => exact nofun

theorem mapM_cons_eq_ok_iff
    {step : first → Except error second}
    {element : first}
    {rest : List first}
    {results : List second} :
    (element :: rest).mapM step = .ok results ↔
      ∃ head tail, step element = .ok head ∧ rest.mapM step = .ok tail ∧
        results = head :: tail := by
  rw [List.mapM_cons, bind_eq_ok_iff]
  constructor
  · rintro ⟨head, headDone, done⟩
    obtain ⟨tail, tailDone, same⟩ := bind_eq_ok_iff.1 done
    cases same
    exact ⟨head, tail, headDone, tailDone, rfl⟩
  · rintro ⟨head, tail, headDone, tailDone, rfl⟩
    exact ⟨head, headDone, bind_eq_ok_iff.2 ⟨tail, tailDone, rfl⟩⟩

/-- A run that succeeds has a result for every element. -/
theorem mem_of_mapM_eq_ok
    {step : first → Except error second}
    {elements : List first}
    {results : List second}
    (done : elements.mapM step = .ok results)
    {element : first}
    (inside : element ∈ elements) :
    ∃ result ∈ results, step element = .ok result := by
  induction elements generalizing results with
  | nil => cases inside
  | cons head rest induct =>
      obtain ⟨result, tail, headDone, tailDone, rfl⟩ :=
        mapM_cons_eq_ok_iff.1 done
      rcases List.mem_cons.1 inside with rfl | later
      · exact ⟨result, List.mem_cons_self, headDone⟩
      · obtain ⟨found, mem, succeeds⟩ := induct tailDone later
        exact ⟨found, List.mem_cons_of_mem _ mem, succeeds⟩

/-- A run that succeeds has as many results as there are elements, and each from
one of them. -/
theorem origins_of_mapM_eq_ok
    {step : first → Except error second}
    {elements : List first}
    {results : List second}
    (done : elements.mapM step = .ok results) :
    results.length = elements.length ∧
    ∀ result ∈ results, ∃ element ∈ elements, step element = .ok result := by
  induction elements generalizing results with
  | nil =>
      cases done
      exact ⟨rfl, List.forall_mem_nil _⟩
  | cons head rest induct =>
      obtain ⟨result, tail, headDone, tailDone, rfl⟩ :=
        mapM_cons_eq_ok_iff.1 done
      obtain ⟨counted, origins⟩ := induct tailDone
      refine ⟨congrArg Nat.succ counted,
        List.forall_mem_cons.2 ⟨⟨head, List.mem_cons_self, headDone⟩, ?_⟩⟩
      intro found inside
      obtain ⟨element, mem, succeeds⟩ := origins found inside
      exact ⟨element, List.mem_cons_of_mem _ mem, succeeds⟩

/-- A run fails as one of its elements does. -/
theorem exists_of_mapM_eq_error
    {step : first → Except error second}
    {elements : List first}
    {fault : error}
    (failed : elements.mapM step = .error fault) :
    ∃ element ∈ elements, step element = .error fault := by
  induction elements with
  | nil => cases failed
  | cons head rest induct =>
      rw [List.mapM_cons] at failed
      cases attempted : step head with
      | error reason =>
          rw [attempted] at failed
          cases failed
          exact ⟨head, List.mem_cons_self, attempted⟩
      | ok result =>
          rw [attempted, ok_bind] at failed
          cases later : rest.mapM step with
          | error reason =>
              rw [later] at failed
              cases failed
              obtain ⟨element, mem, fails⟩ := induct later
              exact ⟨element, List.mem_cons_of_mem _ mem, fails⟩
          | ok tail =>
              rw [later] at failed
              cases failed

/-- A fold that fails has come to one of its elements and fails there. -/
theorem exists_of_foldlM_eq_error
    {step : second → first → Except error second}
    {elements : List first}
    {start : second}
    {fault : error}
    (failed : elements.foldlM step start = .error fault) :
    ∃ front element rest reached, elements = front ++ element :: rest ∧
      front.foldlM step start = .ok reached ∧
      step reached element = .error fault := by
  induction elements generalizing start with
  | nil => cases failed
  | cons head tail induct =>
      rw [List.foldlM_cons] at failed
      cases attempted : step start head with
      | error reason =>
          rw [attempted] at failed
          cases failed
          exact ⟨[], head, tail, start, rfl, rfl, attempted⟩
      | ok next =>
          rw [attempted, ok_bind] at failed
          rcases induct failed with
            ⟨front, element, rest, reached, rfl, done, fails⟩
          refine ⟨head :: front, element, rest, reached, rfl, ?_, fails⟩
          rw [List.foldlM_cons, attempted, ok_bind, done]

end

end MessageBroker
