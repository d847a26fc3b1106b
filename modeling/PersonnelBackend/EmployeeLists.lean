import PersonnelBackend.DirectRoutes
import PersonnelBackend.GuardedWrites

/-! The list of all employees and the list by company. The query of the model
would make the two lists agree, but the handler calls it without the company. -/
namespace PersonnelBackend.EmployeeLists
open Document Database Express Resumption Router Direct Guarded

variable (dash : Driver) (uuid : ℕ → String) (s : Store)

def outcomeOf (r : Request) : Outcome := ((process dash r).run (serve uuid) s).1

/-- Both lists are answered, and the list by company has the listed employees of
that company. -/
def ListsAgree (company : String) : Prop :=
  ∃ all rows, outcomeOf dash uuid s .getEmployees = answered ⟨200, .rows all⟩ ∧
    outcomeOf dash uuid s (.getEmployeesByCompany company) = answered ⟨200, .rows rows⟩ ∧
    rows = all.filter fun d => d.get "company_name" = some (.str company)

/-- The two lists agree for no table and no company. -/
theorem lists_disagree (company : String) : ¬ ListsAgree dash uuid s company := by
  rintro ⟨all, rows, -, hrows, -⟩
  rw [outcomeOf, process_getEmployeesByCompany] at hrows
  cases hrows

def ann : Doc := Doc.strings [("company_name", "Acme"), ("id", "a"), ("status", "Active")]

def office : Store :=
  Store.empty.setTable .employee (Table.empty.insert (fun _ => "a") (.object ann)).1

/-- The employee is listed, and the list of the company is never answered. -/
theorem acme_unanswered :
    outcomeOf official (fun _ => "") office .getEmployees = answered ⟨200, .rows {ann}⟩ ∧
      ann.get "company_name" = some (.str "Acme") ∧
      outcomeOf official (fun _ => "") office (.getEmployeesByCompany "Acme") =
        rejected (.undefinedField "company_name") := by
  decide

/-! ### The query of the model -/

def companyList (company : String) : Multiset Doc :=
  (Query.filter .employee (activePattern "company_name" (.str company))).answer s

/-- Had the handler passed the company on, it would send the rows of the query. -/
theorem run_getByCompany (company : String) :
    (start (Model.Employee.getByCompany dash (some (.str company)) >>= fun rows =>
        send 200 (.rows rows))).run (serve uuid) s =
      (answered ⟨200, .rows (companyList s company)⟩, s) := by
  have hfits : within (.str company) (dash.nestingLevel - 1) = true :=
    within_str company (by have := dash.flat; omega)
  rw [Model.Employee.getByCompany, Model.getActiveBy, bind_assoc, Driver.object_active]
  simp only [hfits, if_true, start_build_ok, start_fetch]
  rfl

variable {s}

/-- The query of the model returns the listed employees of the company. -/
theorem companyList_eq (company : String) :
    companyList s company = ((activeList .employee).answer s).filter fun d =>
      d.get "company_name" = some (.str company) := by
  have hrows : (companyList s company).Nodup := Table.select_nodup _ _
  have hall : ((activeList .employee).answer s).Nodup := Table.select_nodup _ _
  refine (Multiset.Nodup.ext hrows (hall.filter _)).mpr fun d => ?_
  have hmem : d ∈ companyList s company ↔ (∃ k, s.employee.get k = some d) ∧
      d.get "company_name" = some (.str company) ∧ Active d := mem_active_rows rfl
  refine hmem.trans ?_
  rw [Multiset.mem_filter, mem_activeList, and_assoc]
  exact and_congr_right fun _ => and_comm

/-- Over all companies the query returns every listed employee with a string
company exactly once. -/
theorem companyLists_partition :
    (∀ company, (companyList s company).Nodup) ∧
      ∀ d, (d ∈ (activeList .employee).answer s ∧
        ∃ company, d.get "company_name" = some (.str company)) ↔
        ∃! company, d ∈ companyList s company := by
  refine ⟨fun company => Table.select_nodup _ _, fun d => ?_⟩
  simp only [companyList_eq, Multiset.mem_filter]
  constructor
  · rintro ⟨hd, company, hc⟩
    refine ⟨company, ⟨hd, hc⟩, fun other hother => ?_⟩
    exact Json.str.inj (Option.some.inj (hother.2.symm.trans hc))
  · rintro ⟨company, ⟨hd, hc⟩, -⟩
    exact ⟨hd, company, hc⟩

end PersonnelBackend.EmployeeLists
