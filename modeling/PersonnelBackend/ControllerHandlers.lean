import PersonnelBackend.ModelQueries

/-! The four controller modules, handler by handler, and the routes that reach
them. Each `send` is one answer on the response object. -/
namespace PersonnelBackend.Controller
open Document Database Express Resumption

variable (dash : Driver)

namespace Company

def getAll : Handler Unit := do
  let companies ← Model.Company.getAll dash
  send 200 (.rows companies)

def create (body : Body) : Handler Unit := do
  let companyName := body.field "company_name"
  let companyByName ← Model.Company.getByCompanyName dash companyName
  let getCompanies := companyByName.map fun item => item.get "company_name"
  if includes getCompanies companyName then
    send 409 (.object { error := some true, message := some "Company Already Exist!" })
  else
    let company ← Model.Company.create dash body
    send 200 (.object { error := some false, data := some ("company", .result company) })

/-- The identifier is looked at only after the conflict query has come back. -/
def update (id : String) (body : Body) : Handler Unit := do
  let companyName := body.field "company_name"
  let companyByName ← Model.Company.getByCompanyName dash companyName
  let getCompanies := companyByName.map fun item => item.get "company_name"
  if id = "" then
    send 400 (.object { message := some "Id parameter is missing." })
  else if includes getCompanies companyName then
    send 409 (.object { error := some true, message := some "Company Already Exist!" })
  else
    let company ← Model.Company.update dash id body
    if company.replaced > 0 then
      send 200 (.object { error := some false, data := some ("company", .result company) })
    else
      send 400 (.object { error := some true })

def delete (id : String) : Handler Unit := do
  if id = "" then
    send 400 (.object { message := some "Id parameter is missing." })
  else
    let company ← Model.Company.delete dash id
    send 200 (.object { error := some false, data := some ("company", .result company) })

end Company

namespace Employee

def getAllEmployee : Handler Unit := do
  let employees ← Model.Employee.getAll dash
  send 200 (.rows employees)

/-- The model's query is called without its argument. -/
def getByCompany : Handler Unit := do
  let employeeByCompany ← Model.Employee.getByCompany dash none
  send 200 (.rows employeeByCompany)

def create (body : Body) : Handler Unit := do
  let employeeName := body.field "employee_name"
  let employeePosition := body.field "employee_position"
  let companyName := body.field "company_name"
  let employeeByName ← Model.Employee.getByEmployeeName dash employeeName
  let getEmployeesPositions := employeeByName.map fun item => item.get "employee_position"
  let getEmployeesCompany := employeeByName.map fun item => item.get "company_name"
  if includes getEmployeesPositions employeePosition &&
    includes getEmployeesCompany companyName then
    send 409 (.object { error := some true, message := some "Employee Already Exist!" })
  else
    let _ ← Model.Employee.create dash body
    send 200 (.object { error := some false })

def update (id : String) (body : Body) : Handler Unit := do
  let employeeName := body.field "employee_name"
  let employeePosition := body.field "employee_position"
  let companyName := body.field "company_name"
  if id = "" then
    send 400 (.object { message := some "Id parameter is missing." })
  else
    let employeeByName ← Model.Employee.getByEmployeeName dash employeeName
    let getEmployeesPositions := employeeByName.map fun item => item.get "employee_position"
    let getEmployeesCompany := employeeByName.map fun item => item.get "company_name"
    if includes getEmployeesPositions employeePosition &&
      includes getEmployeesCompany companyName then
      send 409 (.object { error := some true, message := some "Employee Already Exist!" })
    else
      let employee ← Model.Employee.update dash id body
      send 200 (.object { error := some false, data := some ("employee", .result employee) })

def delete (id : String) : Handler Unit := do
  let employee ← Model.Employee.delete dash id
  send 200 (.object { error := some false, data := some ("employee", .result employee) })

end Employee

namespace Position

def getAllPosition : Handler Unit := do
  let positions ← Model.Position.getAll
  send 200 (.rows positions)

/-- The role query is built and started but not awaited, so that `result` is a
promise; the read itself has no effect and nobody sees its rows. -/
def create (body : Body) : Handler Unit := do
  let position ← Model.Position.create dash body
  connect
  let _ ← build (official.object [("role", body.field "role")])
  let result := Pending.pending
  if greater result.length 0 then
    send 409 (.object { error := some true })
  else
    send 200 (.object { error := some false, data := some ("position", .result position) })

end Position

namespace User

def getAllUser : Handler Unit := do
  let users ← Model.User.getAll
  send 200 (.rows users)

def login (body : Body) : Handler Unit := do
  let user ← Model.User.login dash body
  if greater (some (Multiset.card user)) 0 then
    send 200 (.object { error := some false, data := some ("user", .rows user) })
  else
    send 401 (.object { error := some true, data := some ("user", .rows user) })

def register (body : Body) : Handler Unit := do
  let user ← Model.User.register dash body
  connect
  let predicate ← build (official.object [("username", body.field "username")])
  let result ← fetch (.filter .user predicate)
  if greater (some (Multiset.card result)) 1 then
    send 409 (.object { error := some true, message := some "Username already exist!" })
  else
    send 200 (.object { error := some false, data := some ("user", .result user) })

end User

end PersonnelBackend.Controller

namespace PersonnelBackend.Router
open Document Database Express Resumption

/-- The routes of the four routers with the data each one carries. -/
inductive Request
  | getCompanies
  | postCompany (body : Body)
  | putCompany (id : String) (body : Body)
  | deleteCompany (id : String)
  | getEmployees
  | getEmployeesByCompany (company : String)
  | postEmployee (body : Body)
  | putEmployee (id : String) (body : Body)
  | deleteEmployee (id : String)
  | getPositions
  | createPosition (body : Body)
  | getUsers
  | registerUser (body : Body)
  | loginUser (body : Body)

def dispatch (dash : Driver) : Request → Handler Unit
  | .getCompanies => Controller.Company.getAll dash
  | .postCompany body => Controller.Company.create dash body
  | .putCompany id body => Controller.Company.update dash id body
  | .deleteCompany id => Controller.Company.delete dash id
  | .getEmployees => Controller.Employee.getAllEmployee dash
  | .getEmployeesByCompany _ => Controller.Employee.getByCompany dash
  | .postEmployee body => Controller.Employee.create dash body
  | .putEmployee id body => Controller.Employee.update dash id body
  | .deleteEmployee id => Controller.Employee.delete dash id
  | .getPositions => Controller.Position.getAllPosition
  | .createPosition body => Controller.Position.create dash body
  | .getUsers => Controller.User.getAllUser
  | .registerUser body => Controller.User.register dash body
  | .loginUser body => Controller.User.login dash body

def process (dash : Driver) (r : Request) : Process := start (dispatch dash r)

end PersonnelBackend.Router
