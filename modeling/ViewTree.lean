import ViewTree.Config.Build
import ViewTree.Config.Same
import ViewTree.Dispatch.Http
import ViewTree.Main
import ViewTree.Tasks.Timed
import ViewTree.Proofs.Json.Reading
import ViewTree.Proofs.Config.Built
import ViewTree.Proofs.Render.Siblings
import ViewTree.Proofs.Render.Depth
import ViewTree.Proofs.Render.Keys
import ViewTree.Proofs.Render.Repetition
import ViewTree.Proofs.State.Fields
import ViewTree.Proofs.State.Path
import ViewTree.Proofs.State.Store
import ViewTree.Proofs.Dispatch.Call
import ViewTree.Proofs.Dispatch.Effect
import ViewTree.Proofs.Dispatch.Descent
import ViewTree.Proofs.Dispatch.Submission
import ViewTree.Proofs.Session.Basic
import ViewTree.Proofs.Session.Quiescence
import ViewTree.Proofs.Session.Loading
import ViewTree.Proofs.Session.Host
import ViewTree.Proofs.Session.Await
import ViewTree.Proofs.Session.Outcome
import ViewTree.Proofs.Session.Independence
import ViewTree.Proofs.Session.InFlight
import ViewTree.Proofs.State.ReadAfterWrite
import ViewTree.Proofs.Dispatch.Load
import ViewTree.Proofs.State.Removal
import ViewTree.Proofs.Dispatch.Failure
import ViewTree.Proofs.Session.Accounts
import ViewTree.Proofs.State.Commute
import ViewTree.Proofs.State.Expansion
import ViewTree.Proofs.Render.Merge
import ViewTree.Proofs.Terminal.Layout
import ViewTree.Proofs.Terminal.Cursor
import ViewTree.Proofs.Terminal.Activation
import ViewTree.Proofs.Terminal.Contents
import ViewTree.Proofs.Text.Glob
import ViewTree.Proofs.Dispatch.Log
import ViewTree.Proofs.Tasks.Keyed
import ViewTree.Proofs.State.Condition
import ViewTree.Proofs.State.Lookup
import ViewTree.Proofs.Dispatch.Headers
import ViewTree.Proofs.Session.Prompt
import ViewTree.Proofs.Terminal.Selection
import ViewTree.Proofs.Render.Traversal
import ViewTree.Proofs.Transform.Options
import ViewTree.Proofs.Dispatch.Script
import ViewTree.Proofs.Transform.Currency
