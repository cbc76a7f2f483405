import ObjectGraph.Document.Assembly
import ObjectGraph.Format.Document
import ObjectGraph.Format.Lemmas
import ObjectGraph.Identifier.Inspect
import ObjectGraph.Proofs.Assembly
import ObjectGraph.Proofs.Dependencies
import ObjectGraph.Proofs.Equality
import ObjectGraph.Proofs.Equivalence
import ObjectGraph.Proofs.Format.Canonical
import ObjectGraph.Proofs.Format.Consumption
import ObjectGraph.Proofs.Format.Counts
import ObjectGraph.Proofs.Format.RoundTrip
import ObjectGraph.Proofs.Format.Truncation
import ObjectGraph.Proofs.Lists
import ObjectGraph.Proofs.Naming
import ObjectGraph.Proofs.Occurrences
import ObjectGraph.Proofs.Registry
import ObjectGraph.Proofs.Renaming
import ObjectGraph.Proofs.Schedule.Acceptance
import ObjectGraph.Proofs.Schedule.Account
import ObjectGraph.Proofs.Schedule.Attempts
import ObjectGraph.Proofs.Schedule.Clashes
import ObjectGraph.Proofs.Schedule.Demands
import ObjectGraph.Proofs.Schedule.Independence
import ObjectGraph.Proofs.Schedule.Layout
import ObjectGraph.Proofs.Schedule.Policies
import ObjectGraph.Proofs.Schedule.Precedence
import ObjectGraph.Proofs.Schedule.Rearrangement
import ObjectGraph.Proofs.Schedule.Rejection
import ObjectGraph.Proofs.Schedule.Rescan
import ObjectGraph.Proofs.Schedule.Scan
import ObjectGraph.Proofs.Schedule.Supplements
import ObjectGraph.Proofs.Schedule.Supply
import ObjectGraph.Proofs.Schedule.Translation
import ObjectGraph.Proofs.Text.Canonical
import ObjectGraph.Registry.Lemmas
import ObjectGraph.Schedule.Log
import ObjectGraph.Schedule.Step
