import WorldPlugins.Attr.Spec
import WorldPlugins.Attr.Value
import WorldPlugins.Main
import WorldPlugins.Probe
import WorldPlugins.Store
import WorldPlugins.Proofs.Except
import WorldPlugins.Proofs.Json.Records
import WorldPlugins.Proofs.Json.Values
import WorldPlugins.Proofs.Json.Lossless
import WorldPlugins.Proofs.Envelopes
import WorldPlugins.Proofs.Attr.Stored
import WorldPlugins.Proofs.Attr.Trees
import WorldPlugins.Proofs.Attr.Collapse
import WorldPlugins.Proofs.Attr.Upserts
import WorldPlugins.Proofs.Attr.Spec
import WorldPlugins.Proofs.Attr.SpecForms
import WorldPlugins.Proofs.Attr.Maps
import WorldPlugins.Proofs.Attr.Values
import WorldPlugins.Proofs.NameList
import WorldPlugins.Proofs.Store.Sessions
import WorldPlugins.Proofs.Store.Requests
import WorldPlugins.Proofs.Keyed
import WorldPlugins.Proofs.Store.Changes
import WorldPlugins.Proofs.Chat.Settings
import WorldPlugins.Proofs.Chat.Channel
import WorldPlugins.Proofs.Chat.Codec
import WorldPlugins.Proofs.Chat.Reading
import WorldPlugins.Proofs.Plugin.Serving
import WorldPlugins.Proofs.Chat.Outcomes
import WorldPlugins.Proofs.Chat.Secrecy
import WorldPlugins.Proofs.Chat.Commands
import WorldPlugins.Proofs.Chat.Directory
import WorldPlugins.Proofs.Chat.Membership
import WorldPlugins.Proofs.Chat.Access
import WorldPlugins.Proofs.Chat.Additions
import WorldPlugins.Proofs.Rpc.Conversations
import WorldPlugins.Proofs.Rpc.Methods
import WorldPlugins.Proofs.Plugin.RoundTrips
import WorldPlugins.Proofs.Access
import WorldPlugins.Proofs.Chat.RoundTrips
import WorldPlugins.Proofs.Chat.Authority
import WorldPlugins.Proofs.Chat.Delivery
import WorldPlugins.Proofs.Calendar.RoundTrips
import WorldPlugins.Proofs.Creation
import WorldPlugins.Proofs.Store.FieldWrites
import WorldPlugins.Proofs.Store.Orderly
import WorldPlugins.Proofs.Intact
import WorldPlugins.Proofs.Classification
import WorldPlugins.Proofs.Rpc.Scripts
import WorldPlugins.Proofs.Chat.Requests
import WorldPlugins.Proofs.Correlation
import WorldPlugins.Proofs.Store.History
import WorldPlugins.Proofs.Store.Refinement
import WorldPlugins.Proofs.Text.Integer
import WorldPlugins.Proofs.Time.Representable
import WorldPlugins.Proofs.Calendar.Event
import WorldPlugins.Proofs.Store.Reliable
import WorldPlugins.Proofs.Calendar.Outcomes
import WorldPlugins.Proofs.Calendar.LifeCycle
import WorldPlugins.Proofs.Chat.Restriction
import WorldPlugins.Proofs.Text.Bytes
import WorldPlugins.Proofs.Rpc.Replies
import WorldPlugins.Proofs.Rpc.Strangers
import WorldPlugins.Proofs.Store.Reordered
import WorldPlugins.Proofs.Chat.Listing
import WorldPlugins.Proofs.Calendar.Listing
import WorldPlugins.Proofs.Time.Calendar
import WorldPlugins.Proofs.Time.Clock
import WorldPlugins.Proofs.Time.Zone
import WorldPlugins.Proofs.Time.Layouts
import WorldPlugins.Proofs.Time.Instants
import WorldPlugins.Proofs.Time.Start
import WorldPlugins.Proofs.Usage
import WorldPlugins.Proofs.Arguments
