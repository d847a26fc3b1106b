import PersonnelBackend.CompanyNameRace
import PersonnelBackend.GuardedSerial
import PersonnelBackend.UserCredentials
import PersonnelBackend.WriteFailures
import PersonnelBackend.DistinctRecords
import PersonnelBackend.RecordHistory
import PersonnelBackend.GuardedConfluence
import PersonnelBackend.Acknowledgements
import PersonnelBackend.SoftDeletion
import PersonnelBackend.Responsiveness
import PersonnelBackend.RegistrationRace
import PersonnelBackend.PositionRoles
import PersonnelBackend.ConflictDecisions
import PersonnelBackend.EmployeeLists
import PersonnelBackend.ConnectionProgress
import PersonnelBackend.WireRefinement
import PersonnelBackend.PrimaryKeys
import PersonnelBackend.InsertBatches
import PersonnelBackend.StoredValues
import PersonnelBackend.Utf8Order
import PersonnelBackend.DatumOperations
import PersonnelBackend.StoredTables
