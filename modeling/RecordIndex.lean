import RecordIndex.Census.Report
import RecordIndex.Workspace.Dismantling
import RecordIndex.Proofs.Policy
import RecordIndex.Proofs.Policy.Climb
import RecordIndex.Proofs.Arena.Contents
import RecordIndex.Proofs.Arena.Path
import RecordIndex.Proofs.Buckets.Threads
import RecordIndex.Proofs.Table.Indexing
import RecordIndex.Proofs.Table.Growth
import RecordIndex.Proofs.Table.Insertion
import RecordIndex.Proofs.Table.Removal
import RecordIndex.Proofs.Table.Capacity
import RecordIndex.Proofs.Table.Safety
import RecordIndex.Proofs.Walk.Place
import RecordIndex.Proofs.Walk.Listing
import RecordIndex.Proofs.Walk.Teardown
import RecordIndex.Proofs.Workspace.Changes
import RecordIndex.Proofs.Workspace.Operations
import RecordIndex.Proofs.Workspace.Fates
import RecordIndex.Proofs.Workspace.Closing
import RecordIndex.Proofs.Session.Custody
import RecordIndex.Proofs.Session.Dismantling
import RecordIndex.Proofs.Session.Validity
import RecordIndex.Proofs.Session.Progress
import RecordIndex.Proofs.Session.Stacks
import RecordIndex.Proofs.Session.Refusals
import RecordIndex.Proofs.Session.Disposal
import RecordIndex.Proofs.Session.Safety
import RecordIndex.Proofs.Session.Capacity
import RecordIndex.Proofs.Table.Reports
import RecordIndex.Proofs.Session.GrowthLog
import RecordIndex.Proofs.Arena.Register
import RecordIndex.Proofs.Workspace.Registers
import RecordIndex.Proofs.Session.Isolation
import RecordIndex.Proofs.Arena.Ledger
import RecordIndex.Proofs.Session.Ledgers
import RecordIndex.Proofs.Session.Lockout
import RecordIndex.Proofs.Arena.Image
import RecordIndex.Proofs.Session.Redistribution
import RecordIndex.Proofs.Arena.Likeness
import RecordIndex.Proofs.Arena.Payloads
import RecordIndex.Proofs.Census.Groups
import RecordIndex.Proofs.Census.Table
import RecordIndex.Proofs.Table.Payloads
import RecordIndex.Proofs.Walk.Payloads
import RecordIndex.Proofs.Workspace.Payloads
import RecordIndex.Proofs.Workspace.Twins
import RecordIndex.Proofs.Session.Order
import RecordIndex.Proofs.Session.Policies
import RecordIndex.Proofs.Session.Payloads
import RecordIndex.Proofs.Session.Searches
import RecordIndex.Proofs.Session.Removals
import RecordIndex.Proofs.Session.Listings
import RecordIndex.Proofs.Session.Insertions
import RecordIndex.Proofs.Census.Histogram
import RecordIndex.Proofs.Census.Elements
import RecordIndex.Proofs.Text.Numbers
import RecordIndex.Proofs.Census.Report
import RecordIndex.Proofs.Session.Census
