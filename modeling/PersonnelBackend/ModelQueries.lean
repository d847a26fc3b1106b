import PersonnelBackend.ExpressHandler

/-! The four model modules. `rethinkdbdash` is not part of the repository and
enters as a parameter: the nesting its terms allow. The company and employee
models are the same queries on two tables. -/
namespace PersonnelBackend.Model
open Document Database Express

variable (dash : Driver)

/-! ### Queries shared by the models -/

def getActive (table : TableName) : Handler (Multiset Doc) := do
  let predicate ← build (dash.object [("status", some (.str "Active"))])
  fetch (.filter table predicate)

def getActiveBy (table : TableName) (field : String) (value : Option Json) :
    Handler (Multiset Doc) := do
  let predicate ← build (dash.object [(field, value), ("status", some (.str "Active"))])
  fetch (.filter table predicate)

def insertInto (table : TableName) (data : Body) : Handler WriteResult := do
  let _ ← build (dash.expr (some data.json))
  execute (.insert table data)

def updateIn (table : TableName) (id : String) (data : Body) : Handler WriteResult := do
  let _ ← build (dash.expr (some (.str id)))
  let _ ← build (dash.expr (some data.json))
  execute (.update table id data)

/-- The literal `{status: 'Inactive'}` that stands for a deletion. -/
def inactive : Doc :=
  Doc.empty.set "status" (.str "Inactive") (by decide) (Json.isScalar_str "Inactive")

namespace Company

def getAll : Handler (Multiset Doc) := getActive dash .company

def create (data : Body) : Handler WriteResult := insertInto dash .company data

def update (id : String) (data : Body) : Handler WriteResult := updateIn dash .company id data

def delete (id : String) : Handler WriteResult := updateIn dash .company id (.object inactive)

def getByCompanyName (name : Option Json) : Handler (Multiset Doc) :=
  getActiveBy dash .company "company_name" name

end Company

namespace Employee

def getAll : Handler (Multiset Doc) := getActive dash .employee

def create (data : Body) : Handler WriteResult := insertInto dash .employee data

def update (id : String) (data : Body) : Handler WriteResult := updateIn dash .employee id data

def delete (id : String) : Handler WriteResult := updateIn dash .employee id (.object inactive)

def getByEmployeeName (name : Option Json) : Handler (Multiset Doc) :=
  getActiveBy dash .employee "employee_name" name

def getByCompany (company : Option Json) : Handler (Multiset Doc) :=
  getActiveBy dash .employee "company_name" company

end Employee

namespace Position

def getAll : Handler (Multiset Doc) := fetch (.rows .positions)

def create (data : Body) : Handler WriteResult := insertInto dash .positions data

end Position

namespace User

def getAll : Handler (Multiset Doc) := fetch (.rows .user)

def login (data : Body) : Handler (Multiset Doc) := do
  let username ← build (dash.expr (data.field "username"))
  let password ← build (dash.expr (data.field "password"))
  fetch (.filterEq .user [("username", username), ("password", password)])

def register (data : Body) : Handler WriteResult := insertInto dash .user data

end User

end PersonnelBackend.Model
